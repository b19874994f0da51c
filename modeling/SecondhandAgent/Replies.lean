/-
This file models the text of a reply. A result has a sentence of its own; a turn
lists one item for each of its intents, and what has become of its command takes
the place of the item that waited for it; a reviewed text in the words of the
model goes before all that as long as the evidence it was reviewed on is still
the evidence. The column of a message's text has a width, and a publication
whose text does not fit fails as a whole.
-/

import SecondhandAgent.Wording

namespace Negotiation

open Store

/-! ### Values in JSON -/

def Operator.text : Operator → String
  | .atLeast => ">="
  | .atMost => "<="
  | .equal => "=="
  | .contains => "contains"

def Predicate.json (predicate : Predicate) : Json :=
  .object
    [("fact", .text predicate.fact.text),
      ("operator", .text predicate.operator.text),
      ("value", .text predicate.value),
      ("source_quote", .text predicate.sourceQuote)]

def Candidate.json (candidate : Candidate) : Json :=
  .object
    [("amount", .option (fun amount => .text (Money.text amount)) candidate.amount),
      ("delivery", .option (fun delivery => .text delivery.text) candidate.delivery),
      ("payer", .option (fun payer => .text payer.text) candidate.payer),
      ("region", .option .text candidate.region),
      ("conditions", .list (candidate.conditions.map Predicate.json)),
      ("commitments", .list (candidate.commitments.map .text))]

def Outcome.name : Outcome → String
  | .offerAccepted => "OFFER_ACCEPTED"
  | .waitingApproval => "WAITING_APPROVAL"
  | .offerRejected => "OFFER_REJECTED"
  | .counterOffered => "COUNTER_OFFERED"
  | .intentConfirmed => "INTENT_CONFIRMED"
  | .offerWithdrawn => "OFFER_WITHDRAWN"
  | .sessionClosed => "SESSION_CLOSED"
  | .approvalRejected => "APPROVAL_REJECTED"
  | .approvalInvalidated => "APPROVAL_INVALIDATED"
  | .offerInvalidated => "OFFER_INVALIDATED"
  | .notExecuted => "NOT_EXECUTED"
  | .productInfo => "PRODUCT_INFO"

def NegotiationStatus.text : NegotiationStatus → String
  | .active => "ACTIVE"
  | .waitingApproval => "WAITING_APPROVAL"
  | .agreed => "AGREED"
  | .closed => "CLOSED"

def IntentStatus.text : IntentStatus → String
  | .answered => "ANSWERED"
  | .unknown => "UNKNOWN"
  | .clarify => "CLARIFY"
  | .choiceRequired => "CHOICE_REQUIRED"
  | .waitingInfo => "WAITING_INFO"
  | .ready => "READY"
  | .recorded => "RECORDED"

def IntentType.text : IntentType → String
  | .askProduct => "ASK_PRODUCT"
  | .askTerms => "ASK_TERMS"
  | .proposeOffer => "PROPOSE_OFFER"
  | .changeTerms => "CHANGE_TERMS"
  | .confirmIntent => "CONFIRM_INTENT"
  | .withdrawOffer => "WITHDRAW_OFFER"
  | .closeSession => "CLOSE_SESSION"
  | .provideInfo => "PROVIDE_INFO"
  | .other => "OTHER"

/-! ### The sentence of a result -/

/-- `TEXT.get(outcome, ..)`: an outcome the table does not name has the sentence of a command
that was not carried out. -/
def Outcome.text : Outcome → String
  | .offerAccepted => "报价已接受，等待买家最终确认。"
  | .waitingApproval => "报价已提交，等待卖家审批，尚未接受。"
  | .offerRejected => "该报价未被接受。"
  | .counterOffered => "已提出可确认的还价方案。"
  | .intentConfirmed => "已记录交易意向，不代表已付款或已完成交易。"
  | .offerWithdrawn => "报价已撤回。"
  | .sessionClosed => "协商已关闭。"
  | .approvalRejected => "卖家已拒绝该报价，可继续协商。"
  | .approvalInvalidated => "该审批已到期或关联报价已失效，不能用于确认。"
  | .offerInvalidated => "该报价或其事实、成本、策略依据已失效，请重新协商。"
  | .notExecuted | .productInfo => "本次未执行业务动作。"

/-- The outcomes that speak of an offer which may be over by now. -/
def Outcome.IsOfOffer (outcome : Outcome) : Prop :=
  outcome ∈ [.offerAccepted, .counterOffered, .waitingApproval, .approvalRejected,
    .approvalInvalidated, .offerInvalidated]

instance (outcome : Outcome) : Decidable outcome.IsOfOffer :=
  inferInstanceAs (Decidable (_ ∈ _))

/-! ### The items of a turn -/

/-- The status of an item: that of its intent, that of a boundary the seller's side keeps to, or
what became of the command. -/
inductive ItemStatus where
  | intent (status : IntentStatus)
  | refused
  | outcome (outcome : Outcome)
deriving DecidableEq

def ItemStatus.text : ItemStatus → String
  | .intent status => status.text
  | .refused => "REFUSED"
  | .outcome became => became.name

/-- One entry of a turn's results; an entry that was made without the key `fact_version` has
none there. -/
structure ResultItem where
  id : String
  status : ItemStatus
  text : String
  factVersion : Option (Option Nat) := none

/-- What a turn keeps of its parsing and of what its intents came to. -/
structure TurnWords where
  intents : List Intent
  results : List ResultItem

/-- A text for every item, numbered. -/
def numbered (items : List ResultItem) : String :=
  "\n".intercalate (items.mapIdx fun index item => s!"{index + 1}. " ++ item.text)

/-- The question that an item answers. -/
def TurnWords.question (turn : TurnWords) (id : String) : Option Intent :=
  turn.intents.find? fun intent => intent.id = id ∧ intent.type.IsQuestion

/-- The item asks how an approval gets on. -/
def TurnWords.Progress (turn : TurnWords) (id : String) : Prop :=
  ∃ intent ∈ turn.intents, intent.id = id ∧ intent.topic = some "approval_status"

instance (turn : TurnWords) (id : String) : Decidable (turn.Progress id) :=
  inferInstanceAs (Decidable (∃ intent ∈ turn.intents, _))

def ResultItem.answeredBy (item : ResultItem) (answer : Answer) : ResultItem :=
  { item with
    status := .intent answer.status, text := answer.text, factVersion := some answer.factVersion }

/-- An item as the reply shows it. -/
def shownItem (db : Db) (run : NegotiationInput) (turn : TurnWords) (result : Result)
    (content : String) (now : Time) (item : ResultItem) : ResultItem :=
  let asked :=
    match run.payload, turn.question item.id with
    | .chat payload, some question =>
      some (questionReply db run payload question.topic question.sourceQuote now)
    | _, _ => none
  if turn.Progress item.id then
    let answer := publicApprovalStatus db now
    { item with status := .intent answer.status, text := answer.text }
  else
    match asked, run.graphVersion with
    | some answer, .negotiationV3 => item.answeredBy answer
    | _, _ =>
      if item.status = .intent .ready then
        { item with status := .outcome result.outcome, text := content }
      else item

/-- The items of a reply: those of the turn, and one for a command that was not carried out if
no intent waited for it. -/
def shownItems (db : Db) (run : NegotiationInput) (turn : TurnWords) (result : Result)
    (content : String) (now : Time) : List ResultItem :=
  turn.results.map (shownItem db run turn result content now) ++
    if result.outcome = .notExecuted ∧ ∀ item ∈ turn.results, item.status ≠ .intent .ready then
      [{ id := "business", status := .outcome .notExecuted, text := content }]
    else []

/-! ### The review of a reply -/

/-- The row that keeps the context and the reviewed text of a turn. -/
structure GraphTurnQuality where
  inputId : Nat
  contextHash : Digest
  reply : Option String := none
  evidenceHash : Option Digest := none
  approved : Bool := false
  reviewCount : Nat := 0
  stopReason : Option String := none
  reviewFeedback : Option String := none

/-- What is kept beside the rows of the session for the text of a reply. -/
structure Words where
  turns : Nat → Option TurnWords := fun _ => none
  quality : Nat → Option GraphTurnQuality := fun _ => none

/-- An item as evidence: a question is answered again, and the item that waits for the command
says what became of it. -/
def evidenceItem (db : Db) (run : NegotiationInput) (turn : TurnWords) (result : Result)
    (now : Time) (item : ResultItem) : ResultItem :=
  match run.payload, turn.question item.id with
  | .chat payload, some question =>
    item.answeredBy (questionReply db run payload question.topic question.sourceQuote now)
  | _, _ =>
    if item.status = .intent .ready then
      { item with status := .outcome result.outcome, text := result.outcome.text }
    else item

/-- An item of the evidence in JSON, with the intent it belongs to where the configuration asks
for that. -/
def itemJson (run : NegotiationInput) (turn : TurnWords) (item : ResultItem) : Json :=
  let original := turn.intents.find? fun intent => intent.id = item.id
  .object
    ([("id", .text item.id), ("status", .text item.status.text), ("text", .text item.text)] ++
      (match item.factVersion with
        | none => []
        | some version => [("fact_version", .option (fun version : Nat => .number version) version)]) ++
      if run.config.qualityVersion = some "p4-v2" ∨ run.config.qualityVersion = some "p4-v3" then
        [("intent_type", .text ((original.map (·.type.text)).getD "OTHER")),
          ("buyer_quote", .text ((original.map (·.sourceQuote)).getD ""))]
      else [])

def Offer.publicJson (offer : Offer) : Json :=
  .object
    [("amount", .text offer.price.text),
      ("terms", .object (offer.terms.map fun term => (term.1, .text term.2))),
      ("shipping_paid_by", .text offer.shippingPaidBy.text)]

/-- The drafts of the run's turn. -/
def turnDrafts (db : Db) (runId : Nat) : List OfferDraft :=
  ((db.turns.get runId).map (·.draftIds)).getD [] |>.filterMap db.drafts.get

/-- `reply_evidence`: only what is public. -/
def replyEvidence (db : Db) (words : Words) (run : NegotiationInput) (result : Result)
    (now : Time) : Json :=
  let turn := (words.turns run.id).getD { intents := [], results := [] }
  .object
    [("items", .list (turn.results.map fun item =>
        itemJson run turn (evidenceItem db run turn result now item))),
      ("business_outcome", .text result.outcome.name),
      ("business_version", .number db.session.version),
      ("product_version", .number db.product.productVersion),
      ("public_description", .text db.product.description),
      ("receipt_version", .option (fun version : Nat => .number version) result.businessVersion),
      ("public_offer", .option Offer.publicJson (result.offerId.bind db.offers.get)),
      ("public_drafts", .list ((turnDrafts db run.id).map fun draft => draft.candidate.json))]

variable [Platform]

/-- `reviewed_reply`: the text that was approved for the evidence as it is now. -/
def reviewedReply (db : Db) (words : Words) (run : NegotiationInput) (result : Result)
    (deadline now : Time) : Option String :=
  match words.quality run.id with
  | none => none
  | some item =>
    if item.approved ∧ now < deadline ∧
        item.evidenceHash = some (digest (replyEvidence db words run result now)) then
      item.reply
    else none

/-! ### The text -/

/-- The offer that the result speaks of is not the one that can be acted on. -/
def Historical (db : Db) (result : Result) (now : Time) : Prop :=
  Found (result.offerId.bind db.offers.get) fun offer =>
    db.session.currentOfferId ≠ some offer.id ∨ result.businessVersion ≠ some db.session.version ∨
      offer.expiresAt ≤ now ∨
      (result.outcome = .offerAccepted ∨ result.outcome = .counterOffered) ∧
        ¬ Confirmable db result (some offer) now

instance (db : Db) (result : Result) (now : Time) : Decidable (Historical db result now) := by
  delta Historical
  infer_instance

/-- The sentence of a result as it stands. -/
def resultText (db : Db) (result : Result) (now : Time) : String :=
  if Historical db result now ∧ result.outcome.IsOfOffer then
    "历史结果：" ++ result.outcome.text ++ " 此结果已不是当前可操作方案；" ++
      "当前协商状态为 " ++ db.session.status.text ++ "，请查看最新结果。"
  else
    match result.outcome with
    | .productInfo =>
      match result.publicAnswer with
      | some answer => if answer = "" then db.product.title ++ "：" ++ db.product.description
          else answer
      | none => db.product.title ++ "：" ++ db.product.description
    | .notExecuted => result.outcome.text ++ result.reason.getD ""
    | outcome => outcome.text

/-- The text that answers an input. -/
def replyText (db : Db) (words : Words) (run : NegotiationInput) (result : Result)
    (deadline now : Time) : String :=
  let content := resultText db result now
  let listed :=
    match words.turns run.id with
    | none => content
    | some turn => numbered (shownItems db run turn result content now)
  match reviewedReply db words run result deadline now with
  | some natural =>
    if natural ≠ "" ∧ ¬ Historical db result now then natural ++ "\n" ++ listed else listed
  | none => listed

/-- The bytes a column of the type `TEXT` holds. -/
def textWidth : Nat := 65535

end Negotiation
