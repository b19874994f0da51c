/-
This file models the reply of a conversation that the model writes itself, and
the review it goes through before it is published: the checks that need no
model, the verdict of the reviewing model with the facts it cites, and the
value that a review is filed under. What a reply is reviewed for is its action
and its text together with the facts and what was said; the topics, the reason
and the update of the memory do not count.
-/

import SecondhandAgent.Agent.Claims
import SecondhandAgent.Agent.Memory

namespace Negotiation.Agent

open Store

/-! ### Facts -/

/-- A value of the facts that the model is shown. A number is given by the text `str` makes of it. -/
inductive FactTree where
  | null
  | bool (value : Bool)
  | number (text : String)
  | text (value : String)
  | list (items : List FactTree)
  | object (fields : List (String × FactTree))

/-- Digits that are not decimal ones, as the first and the last character of each block. -/
def otherDigits : List (Nat × Nat) :=
  [(0xb2, 0xb3), (0xb9, 0xb9), (0x1369, 0x1371), (0x19da, 0x19da), (0x2070, 0x2070),
    (0x2074, 0x2079), (0x2080, 0x2089), (0x2460, 0x2468), (0x2474, 0x247c), (0x2488, 0x2490),
    (0x24ea, 0x24ea), (0x24f5, 0x24fd), (0x24ff, 0x24ff), (0x2776, 0x277e), (0x2780, 0x2788),
    (0x278a, 0x2792), (0x10a40, 0x10a43), (0x10e60, 0x10e68), (0x11052, 0x1105a),
    (0x1f100, 0x1f10a)]

/-- `str.isdigit` -/
def isDigit (text : String) : Bool :=
  !text.isEmpty && text.toList.all fun char => (Regex.digitValue char).isSome ||
    otherDigits.any fun block => decide (block.1 ≤ char.toNat ∧ char.toNat ≤ block.2)

/-- `int(..)` of digits -/
def toInt (text : String) : Except String Nat :=
  match text.toList.mapM Regex.digitValue with
  | some digits => .ok (digits.foldl (fun value digit => 10 * value + digit) 0)
  | none => .error ("invalid literal for int() with base 10: '" ++ text ++ "'")

/-- One part of a path, where the whole path is `path`. -/
def FactTree.part (path : String) : FactTree → String → Except String FactTree
  | object fields, part =>
    expect (fields.lookup part) ("审核引用的事实路径不存在：" ++ path)
  | list items, part =>
    if isDigit part then do
      let index ← toInt part
      expect items[index]? ("审核引用的事实路径不存在：" ++ path)
    else .error ("审核引用的事实路径不存在：" ++ path)
  | _, _ => .error ("审核引用的事实路径不存在：" ++ path)

/-- The text of a single value. -/
def FactTree.scalar : FactTree → Option String
  | bool value => some (if value then "true" else "false")
  | number shown => some shown
  | text shown => some shown
  | null | list _ | object _ => none

/-- `path.split(".")` -/
def pathParts (path : String) : List String := (path.toList.splitOn '.').map String.ofList

/-- The value at a path. -/
def FactTree.at (facts : FactTree) (path : String) : Except String FactTree :=
  (pathParts path).foldlM (FactTree.part path) facts

/-! ### A review -/

structure FactCheck where
  claim : String
  evidencePath : String
  evidenceQuote : String
deriving DecidableEq

structure ReplyReview where
  approved : Bool
  reason : String
  factChecks : List FactCheck
deriving DecidableEq

/-- The quotation as it is compared with the value. -/
def FactCheck.quoteFor (check : FactCheck) : FactTree → String
  | .bool _ => .ofList (check.evidenceQuote.toList.map Char.toLower)
  | _ => check.evidenceQuote

/-- What is checked of a fact that an approval cites. -/
def FactCheck.validate (facts : FactTree) (check : FactCheck) : Except String Unit := do
  require (check.evidencePath ≠ "" ∧ check.evidenceQuote ≠ "") "批准回复时，事实引用不能为空"
  let value ← facts.at check.evidencePath
  let original ← expect value.scalar "审核依据必须引用具体事实字段"
  require (occurs (check.quoteFor value) original)
    ("审核引用与事实字段不一致：" ++ check.evidencePath)

/-- `validate_review_evidence` -/
def validateReviewEvidence (verdict : ReplyReview) (facts : FactTree) : Except String Unit :=
  if verdict.approved then verdict.factChecks.forM (FactCheck.validate facts) else .ok ()

/-- The check cites a single value of the facts and quotes from it. -/
def FactCheck.Cites (check : FactCheck) (facts : FactTree) : Prop :=
  check.evidenceQuote ≠ "" ∧ ∃ value original, facts.at check.evidencePath = .ok value ∧
    value.scalar = some original ∧ occurs (check.quoteFor value) original = true

theorem FactCheck.cites_of_validate {check : FactCheck} {facts : FactTree}
    (passed : check.validate facts = .ok ()) : check.Cites facts := by
  unfold validate at passed
  simp only [bind_eq_ok, require_eq_ok, expect_eq_ok] at passed
  obtain ⟨_, nonempty, value, found, original, single, quoted⟩ := passed
  exact ⟨nonempty.2, value, original, found, single, quoted⟩

theorem forM_eq_ok {Value : Type} {check : Value → Except String Unit} {values : List Value} :
    values.forM check = .ok () ↔ ∀ value ∈ values, check value = .ok () := by
  induction values with
  | nil => exact ⟨fun _ _ member => absurd member List.not_mem_nil, fun _ => rfl⟩
  | cons value rest inductionHypothesis =>
    change (check value >>= fun _ => rest.forM check) = .ok () ↔ _
    rw [bind_eq_ok, List.forall_mem_cons]
    exact ⟨fun ⟨_, first, others⟩ => ⟨first, inductionHypothesis.mp others⟩,
      fun ⟨first, others⟩ => ⟨(), first, inductionHypothesis.mpr others⟩⟩

/-- An approval that is valid cites facts only. -/
theorem cites_of_validateReviewEvidence {verdict : ReplyReview} {facts : FactTree}
    (approved : verdict.approved = true) (valid : validateReviewEvidence verdict facts = .ok ()) :
    ∀ check ∈ verdict.factChecks, check.Cites facts := by
  unfold validateReviewEvidence at valid
  rw [if_pos approved] at valid
  exact fun check member => FactCheck.cites_of_validate (forM_eq_ok.mp valid check member)

/-! ### A reply -/

inductive FinishAction where
  | inquiry
  | reject
deriving DecidableEq

/-- `ConversationDecision` -/
structure ConversationDecision where
  action : FinishAction
  reason : String
  reply : String
  needsClarification : Bool := false
  topics : List String := []

/-- `ConversationFinish` -/
structure ConversationFinish where
  decision : ConversationDecision
  stopReason : String := "COMPLETED"
  memoryDelta : MemoryDelta := {}

/-- `str.casefold`, as far as it yields letters of ASCII. -/
def casefoldChar (char : Char) : List Char :=
  match char with
  | 'ß' | 'ẞ' => ['s', 's']
  | 'ſ' => ['s']
  | '\u212a' => ['k']
  | 'İ' => ['i', '\u0307']
  | 'ŉ' => ['\u02bc', 'n']
  | 'ǰ' => ['j', '\u030c']
  | 'ẖ' => ['h', '\u0331']
  | 'ẗ' => ['t', '\u0308']
  | 'ẘ' => ['w', '\u030a']
  | 'ẙ' => ['y', '\u030a']
  | 'ẚ' => ['a', '\u02be']
  | 'ﬀ' => ['f', 'f']
  | 'ﬁ' => ['f', 'i']
  | 'ﬂ' => ['f', 'l']
  | 'ﬃ' => ['f', 'f', 'i']
  | 'ﬄ' => ['f', 'f', 'l']
  | 'ﬅ' | 'ﬆ' => ['s', 't']
  | char => [char.toLower]

def casefold (text : String) : String := .ofList (text.toList.flatMap casefoldChar)

/-- A promise to contact the seller. -/
def contactPromise : String :=
  r"(?:我|我们)(?:会|可以|将|来|能|帮|替|已|已经).{0,14}(?:(?:向|跟|与|联系)卖家.{0,8}(?:反馈|核实|确认|沟通|联系)|(?:通知|联系)(?:了)?卖家)"

/-- Terms of the machinery. -/
def internalTerms : List String :=
  ["自动接受阈值", "自动接受门槛", "系统提示词", "system prompt", "内部工具"]

def ClaimCode.text : ClaimCode → String
  | privatePriceLeak => "PRIVATE_PRICE_LEAK"
  | systemPromptLeak => "SYSTEM_PROMPT_LEAK"
  | falseApproval => "FALSE_APPROVAL"
  | unauthorizedFreeShipping => "UNAUTHORIZED_FREE_SHIPPING"
  | unauthorizedDispatch => "UNAUTHORIZED_DISPATCH"
  | unauthorizedReservation => "UNAUTHORIZED_RESERVATION"
  | falseTransaction => "FALSE_TRANSACTION"

/-- `preliminary_error`, which reads the text of the reply only. -/
def preliminaryError (reply : String) : Option String :=
  if Regex.found contactPromise reply then
    some "当前没有联系卖家的工具，不能承诺向卖家反馈、联系或核实；可说明需要买家向卖家确认。"
  else if internalTerms.any fun term => occurs term (casefold reply) then
    some "公开回复包含内部机制术语，请用自然语言说明限制，不展示内部实现。"
  else
    match findUnsafeClaims reply with
    | [] => none
    | violations => some ("未经授权或私密信息声明：" ++
        ",".intercalate ((violations.map ClaimCode.text).mergeSort fun one two => one ≤ two))

/-! ### What a review is about -/

/-- A record as the reviewing model sees it. -/
structure Spoken where
  seq : Int
  kind : RecordKind
  content : String
deriving DecidableEq

/-- The value whose digest a review is filed under. -/
structure ReviewPayload where
  action : FinishAction
  reply : String
  facts : FactTree
  conversation : List Spoken
  currentInputSeq : Int

/-- The last twelve public records up to the input. -/
def conversationOf (records : List StreamRecord) (currentInputSeq : Int) : List Spoken :=
  let visible := records.filter fun record =>
    decide (record.visibility = .everyone ∧ record.seq ≤ currentInputSeq)
  (visible.map fun record => ⟨record.seq, record.kind, record.content⟩).drop (visible.length - 12)

/-- `review_input` without the digest. -/
def reviewInput (decision : ConversationDecision) (facts : FactTree) (records : List StreamRecord)
    (currentInputSeq : Int) : ReviewPayload where
  action := decision.action
  reply := decision.reply
  facts
  conversation := conversationOf records currentInputSeq
  currentInputSeq

/-- The answer of the reviewing model: its text, and whether it called tools or was cut off. -/
structure ReviewAnswer where
  content : String
  calledTools : Bool := false
  truncated : Bool := false
deriving DecidableEq

def refusedReview (reason : String) : ReplyReview := ⟨false, reason, []⟩

/-- The verdict for a review that failed with an error. -/
def failedReview (error : String) : ReplyReview :=
  refusedReview ("回复审核或事实引用无效：" ++ .ofList (error.toList.take 250))

/-- The verdict of an answer; `parse` reads a review from its text. -/
def verdictOf (parse : String → Except String ReplyReview) (facts : FactTree)
    (answer : ReviewAnswer) : ReplyReview :=
  let read : Except String ReplyReview := do
    require (answer.calledTools = false ∧ answer.truncated = false)
      "审核输出被截断或调用了工具，请修正并缩短候选回复"
    let verdict ← parse answer.content
    validateReviewEvidence verdict facts
    pure verdict
  match read with
  | .ok verdict => verdict
  | .error text => failedReview text

/-- Whatever is answered, an approval cites facts only. -/
theorem verdictOf_valid (parse : String → Except String ReplyReview) (facts : FactTree)
    (answer : ReviewAnswer) :
    validateReviewEvidence (verdictOf parse facts answer) facts = .ok () := by
  unfold verdictOf
  dsimp only
  split
  · next verdict read =>
    simp only [bind_eq_ok, pure_eq_ok] at read
    obtain ⟨_, _, verdict, _, _, valid, rfl⟩ := read
    exact valid
  · rfl

end Negotiation.Agent
