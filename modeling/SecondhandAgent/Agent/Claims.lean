/-
This file models the scanner for claims that the assistant has no authority to
make: the patterns, the look back for a negation, the look ahead for a refusal
behind a quotation, and what the scanner finds in a reply that is put together
of two.

A negation is looked for in the sixteen characters before the claim, and these
may belong to the sentence before. A quotation may begin in one sentence and end
in the next one. So a sentence before a reply can hide a claim in it.
-/

import SecondhandAgent.Scanning

namespace Negotiation.Agent

open Regex

/-! ### The scanner -/

inductive ClaimCode where
  | privatePriceLeak
  | systemPromptLeak
  | falseApproval
  | unauthorizedFreeShipping
  | unauthorizedDispatch
  | unauthorizedReservation
  | falseTransaction
deriving DecidableEq

def ClaimCode.all : List ClaimCode :=
  [privatePriceLeak, systemPromptLeak, falseApproval, unauthorizedFreeShipping,
    unauthorizedDispatch, unauthorizedReservation, falseTransaction]

/-- `_UNSAFE_CLAIMS` -/
def unsafeClaims : ClaimCode → String
  | .privatePriceLeak =>
    r"(?:(?:卖家)?(?:底价|底價|最低(?:接受)?价|最低(?:接受)?價|floor price)\s*(?:是|为|為|=|:|：|is)\s*[¥￥]?\s*\d)|(?:[¥￥]?\s*\d+(?:\.\d+)?\s*(?:元|块|rmb)?\s*(?:就是|是|为|為)?\s*(?:卖家)?(?:底价|底價|最低(?:接受)?价|floor price))"
  | .systemPromptLeak =>
    r"(?:系统提示词|系統提示詞|system prompt)\s*(?:是|为|為|如下|内容|內容|:|：)"
  | .falseApproval =>
    r"(?:(?:卖家|賣家)?(?:已经|已經|已)(?:审批通过|審批通過|同意|批准))|(?:(?:审批通过|審批通過|卖家同意|賣家同意)(?:了|啦|。|$))|(?:seller (?:has )?approved|approval (?:has been )?granted)"
  | .unauthorizedFreeShipping =>
    r"(?:(?:我|我们|我們|卖家|賣家)(?:可以|同意|承诺|承諾|确认|確認|会|會|将|將|保证|保證)(?:给你|給你)?(?:包邮|包郵|免邮|免郵))|(?:(?:可以|同意|会|會|将|將|保证|保證)(?:给你|給你)?(?:包邮|包郵|免邮|免郵))|(?:(?:包邮|包郵|免邮|免郵)(?:没问题|沒問題|可以|已确认|已確認))|(?:free shipping (?:is )?(?:confirmed|included))"
  | .unauthorizedDispatch =>
    r"(?:(?:保证|保證|承诺|承諾|确认|確認|会|會|将|將|一定).{0,6}(?:今天发货|今天發貨|当日发货|當日發貨))|(?:(?:will|guarantee to) (?:ship|dispatch) today)"
  | .unauthorizedReservation =>
    r"(?:(?:已经|已經|已|为你|為你|给你|給你)(?:预订|預訂|预留|預留|保留))|(?:reserved for you|hold it for you)"
  | .falseTransaction =>
    r"(?:(?:已经|已經|已|确认|確認|正式)(?:成交|达成交易|達成交易))|(?:deal is done|deal (?:has been )?confirmed)"

/-- `_NEGATION_NEAR_CLAIM` -/
def negationNearClaim : String :=
  r"(?:不|未|没有|沒有|尚未|无法|無法|不能|不会|不會|不可|拒绝|拒絕|not|cannot|can't|won't|never).{0,10}$"

def quotation : String := r#"[‘“"']([^‘’“”"']{1,100})[’”"']"#

def refusal : String := r"无法|不能|不支持|不可|未获授权|不予|不被接受"

/-- The pattern of a text, an empty one where the text is none. -/
def compiled (pattern : String) : Pattern := (compile pattern).getD .empty

/-- `pattern.finditer(reply)` for the pattern of a code. -/
def finditer (code : ClaimCode) (reply : List Char) : List (Nat × Nat) :=
  spans (compiled (unsafeClaims code)).foldCase reply

/-- There is a negation shortly before the claim. -/
def negated (reply : List Char) (claim : Nat × Nat) : Bool :=
  let before := (reply.take claim.1).drop (claim.1 - 16)
  (searchChars (compiled negationNearClaim).foldCase before).isSome

/-- The claim stands in a quotation with a refusal behind it. -/
def quotedRefusal (reply : List Char) (claim : Nat × Nat) : Bool :=
  (spans (compiled quotation) reply).any fun quote =>
    decide (quote.1 ≤ claim.1) && decide (claim.2 ≤ quote.2) &&
      (searchChars (compiled refusal)
        (((reply.drop quote.2).take 40).takeWhile (· ≠ '。'))).isSome

/-- The codes of the claims that are made and not taken back. -/
def findUnsafeClaims (reply : String) : List ClaimCode :=
  ClaimCode.all.filter fun code => (finditer code reply.toList).any fun claim =>
    !negated reply.toList claim && !quotedRefusal reply.toList claim

theorem mem_findUnsafeClaims {code : ClaimCode} {reply : String} :
    code ∈ findUnsafeClaims reply ↔ ∃ claim ∈ finditer code reply.toList,
      negated reply.toList claim = false ∧ quotedRefusal reply.toList claim = false := by
  have listed : code ∈ ClaimCode.all := by cases code <;> decide
  unfold findUnsafeClaims
  rw [List.mem_filter, List.any_eq_true]
  simp only [listed, true_and, Bool.and_eq_true, Bool.not_eq_true']

/-! ### Patterns that end with a sentence -/

theorem compile_chars (property : Option Pattern → Prop) (chars : List Char)
    (holds : property (match readAlternatives (3 * chars.length + 3) 0 chars with
      | some (pattern, _, []) => some pattern
      | _ => none)) : property (compile (String.ofList chars)) := by
  unfold compile
  dsimp only
  rw [String.toList_ofList]
  exact holds

theorem compiled_chars (property : Pattern → Prop) (chars : List Char)
    (holds : property ((match readAlternatives (3 * chars.length + 3) 0 chars with
      | some (pattern, _, []) => some pattern
      | _ => none).getD .empty)) : property (compiled (String.ofList chars)) :=
  compile_chars (fun read => property (read.getD .empty)) chars holds

set_option maxRecDepth 4000 in
/-- Every pattern but one takes a full stop at most as its last character. -/
theorem ClaimCode.final {code : ClaimCode} (other : code ≠ .unauthorizedDispatch) :
    ((compiled (unsafeClaims code)).foldCase.final '。' &&
      (compiled (unsafeClaims code)).foldCase.takes) = true := by
  have holds (chars : List Char) := compiled_chars
    (fun pattern => (pattern.foldCase.final '。' && pattern.foldCase.takes) = true) chars
  cases code with
  | privatePriceLeak => exact holds _ (by decide +kernel)
  | systemPromptLeak => exact holds _ (by decide +kernel)
  | falseApproval => exact holds _ (by decide +kernel)
  | unauthorizedFreeShipping => exact holds _ (by decide +kernel)
  | unauthorizedDispatch => exact absurd rfl other
  | unauthorizedReservation => exact holds _ (by decide +kernel)
  | falseTransaction => exact holds _ (by decide +kernel)

/-! ### Two texts -/

end Negotiation.Agent
