/-
This file models the input contracts: the terms of an offer, the two kinds of
buyer input, the candidate a semantic turn works on and the frozen run
configuration, together with the failures a transaction can end in. The
validators of the contracts are fields of the structures.
-/

import SecondhandAgent.Outcome
import SecondhandAgent.Values

namespace Negotiation

/-! ### Failures -/

/-- The points of a transaction at which the fault hook can raise. -/
inductive FaultPoint where
  | authorization
  | offer
  | round
  | resolution
  | receipt
  | notification
  | outbox
  | decision
  | effect
deriving DecidableEq

/-- What ends a transaction without a commit. -/
inductive Failure where
  | conflict (text : String)
  | staleOwner (text : String)
  | budgetExhausted (text : String)
  | recoveryConflict (text : String)
  | approvalConflict (text : String)
  | approvalNotFound (text : String)
  | productNotFound (text : String)
  | policyVersionConflict (text : String)
  | pricing (text : String)
  | invalidOfferTerms (text : String)
  /-- A contract rejects the value. -/
  | invalid
  /-- The database refuses a duplicate key. -/
  | unique
  /-- The database refuses a row that violates a check constraint. -/
  | check
  /-- The database refuses a text that is too long for its column. -/
  | tooLong
  /-- The program uses a row that is not there. -/
  | missing
  | injected (point : FaultPoint)
deriving DecidableEq

/-- The fault hook: `fault` is the point at which it raises, if it does. -/
def raiseAt (fault : Option FaultPoint) (point : FaultPoint) : Except Failure Unit :=
  Store.require (fault ≠ some point) (.injected point)

/-! ### Texts -/

/-- The white space that `str.strip` removes. -/
def isSpace (letter : Char) : Bool :=
  let code := letter.toNat
  (9 ≤ code && code ≤ 13) || (28 ≤ code && code ≤ 32) || code = 133 || code = 160 ||
    code = 5760 || (8192 ≤ code && code ≤ 8202) || code = 8232 || code = 8233 ||
    code = 8239 || code = 8287 || code = 12288

/-- `str.strip` -/
def strip (text : String) : String :=
  .ofList ((text.toList.dropWhile isSpace).reverse.dropWhile isSpace).reverse

/-! ### Terms -/

/-- A decimal amount of an input and the way it is written: the text of `12.5` and that of
`12.50` are different inputs of one value. -/
structure Amount where
  money : Money
  text : String
deriving DecidableEq

def Amount.ofMoney (money : Money) : Amount := ⟨money, money.text⟩

def Amount.json (amount : Amount) : Json := .text amount.text

def ShippingPayer.text : ShippingPayer → String
  | .buyer => "buyer"
  | .seller => "seller"

def DeliveryMethod.text : DeliveryMethod → String
  | .shipping => "shipping"
  | .pickup => "pickup"

/-- `coherent_delivery`: a pickup carries no shipping cost of the seller. -/
def CoherentDelivery (shippingPaidBy : ShippingPayer) (shippingCost : Option Amount)
    (additionalTerms : List (String × String)) : Prop :=
  ("delivery_method", "pickup") ∈ additionalTerms →
    shippingPaidBy ≠ .seller ∧ (shippingCost.map (·.money) = none ∨
      shippingCost.map (·.money) = some .zero)

instance (shippingPaidBy : ShippingPayer) (shippingCost : Option Amount)
    (additionalTerms : List (String × String)) :
    Decidable (CoherentDelivery shippingPaidBy shippingCost additionalTerms) :=
  inferInstanceAs (Decidable (_ → _))

theorem coherent_default : CoherentDelivery .buyer none [] := by decide

/-- The terms of an offer. -/
structure Terms where
  amount : Amount
  shippingPaidBy : ShippingPayer := .buyer
  shippingCost : Option Amount := none
  sellerDiscount : Option Amount := some (.ofMoney .zero)
  additionalTerms : List (String × String) := []
  coherent : CoherentDelivery shippingPaidBy shippingCost additionalTerms := by
    first | exact coherent_default | decide
deriving DecidableEq

/-- The constructor of `Terms`: it runs the validator. -/
def Terms.validated (amount : Amount) (shippingPaidBy : ShippingPayer)
    (shippingCost sellerDiscount : Option Amount) (additionalTerms : List (String × String)) :
    Except Failure Terms :=
  if coherent : CoherentDelivery shippingPaidBy shippingCost additionalTerms then
    .ok { amount, shippingPaidBy, shippingCost, sellerDiscount, additionalTerms, coherent }
  else .error .invalid

def additionalJson (additionalTerms : List (String × String)) : Json :=
  .object (additionalTerms.map fun term => (term.1, .text term.2))

def Terms.json (terms : Terms) : Json :=
  .object
    [("amount", terms.amount.json),
      ("shipping_paid_by", .text terms.shippingPaidBy.text),
      ("shipping_cost", .option Amount.json terms.shippingCost),
      ("seller_discount", .option Amount.json terms.sellerDiscount),
      ("additional_terms", additionalJson terms.additionalTerms)]

/-! ### Typed inputs -/

inductive Kind where
  | submit
  | replace
  | confirm
  | withdraw
  | close
  | query
deriving DecidableEq

def Kind.text : Kind → String
  | .submit => "SUBMIT"
  | .replace => "REPLACE"
  | .confirm => "CONFIRM"
  | .withdraw => "WITHDRAW"
  | .close => "CLOSE"
  | .query => "QUERY"

/-- The kinds that carry the terms of an offer. -/
def Kind.IsOffer (kind : Kind) : Prop := kind = .submit ∨ kind = .replace

instance (kind : Kind) : Decidable kind.IsOffer := inferInstanceAs (Decidable (_ ∨ _))

/-- `check_kind`: an offer carries terms and nothing else does; a confirmation and a
withdrawal name the offer. -/
def CheckKind (kind : Kind) (terms counterTerms : Option Terms) (offerId : Option Nat) : Prop :=
  (kind.IsOffer ↔ terms ≠ none) ∧ (counterTerms ≠ none → kind.IsOffer) ∧
    ((kind = .confirm ∨ kind = .withdraw) → offerId ≠ none)

instance (kind : Kind) (terms counterTerms : Option Terms) (offerId : Option Nat) :
    Decidable (CheckKind kind terms counterTerms offerId) :=
  inferInstanceAs (Decidable (_ ∧ _ ∧ _))

theorem checkKind_query : CheckKind .query none none none := by decide

theorem checkKind_close : CheckKind .close none none none := by decide

/-- A typed buyer input, which is also what a semantic turn plans. -/
structure TypedInput where
  kind : Kind
  text : String := ""
  terms : Option Terms := none
  counterTerms : Option Terms := none
  offerId : Option Nat := none
  clientViewId : String := "internal"
  displayReceiptId : Option Nat := none
  checked : CheckKind kind terms counterTerms offerId := by
    first | exact checkKind_query | exact checkKind_close | decide
deriving DecidableEq

def TypedInput.json (input : TypedInput) : Json :=
  .object
    [("kind", .text input.kind.text),
      ("text", .text input.text),
      ("terms", .option Terms.json input.terms),
      ("counter_terms", .option Terms.json input.counterTerms),
      ("offer_id", .option (fun id => .number id) input.offerId),
      ("client_view_id", .text input.clientViewId),
      ("display_receipt_id", .option (fun id => .number id) input.displayReceiptId)]

/-! ### Chat inputs -/

inductive ChatAction where
  | confirm
  | close
deriving DecidableEq

def ChatAction.text : ChatAction → String
  | .confirm => "CONFIRM"
  | .close => "CLOSE"

/-- `paired`: a draft comes with its version, a confirmation with an offer and a display
receipt, and an offer only with a confirmation. -/
def Paired (draftId draftVersion : Option Nat) (action : Option ChatAction)
    (offerId displayReceiptId : Option Nat) : Prop :=
  (draftId = none ↔ draftVersion = none) ∧
    (action = some .confirm → offerId ≠ none ∧ displayReceiptId ≠ none) ∧
    (offerId ≠ none → action = some .confirm)

instance (draftId draftVersion : Option Nat) (action : Option ChatAction)
    (offerId displayReceiptId : Option Nat) :
    Decidable (Paired draftId draftVersion action offerId displayReceiptId) :=
  inferInstanceAs (Decidable (_ ∧ _ ∧ _))

theorem paired_text : Paired none none none none none := by decide

/-- A free text input. -/
structure ChatInput where
  text : String
  clientViewId : String
  displayReceiptId : Option Nat := none
  replyToMessageId : Option Nat := none
  draftId : Option Nat := none
  draftVersion : Option Nat := none
  action : Option ChatAction := none
  offerId : Option Nat := none
  paired : Paired draftId draftVersion action offerId displayReceiptId := by
    first | exact paired_text | decide
deriving DecidableEq

def ChatInput.json (input : ChatInput) : Json :=
  .object
    [("kind", .text "CHAT"),
      ("text", .text input.text),
      ("client_view_id", .text input.clientViewId),
      ("display_receipt_id", .option (fun id => .number id) input.displayReceiptId),
      ("reply_to_message_id", .option (fun id => .number id) input.replyToMessageId),
      ("draft_id", .option (fun id => .number id) input.draftId),
      ("draft_version", .option (fun version => .number version) input.draftVersion),
      ("action", .option (fun action => .text action.text) input.action),
      ("offer_id", .option (fun id => .number id) input.offerId)]

/-- The payload of an input. -/
inductive Payload where
  | typed (input : TypedInput)
  | chat (input : ChatInput)
deriving DecidableEq

namespace Payload

def isChat : Payload → Bool
  | .typed _ => false
  | .chat _ => true

def isQuery : Payload → Bool
  | .typed input => input.kind = .query
  | .chat _ => false

def text : Payload → String
  | .typed input => input.text
  | .chat input => input.text

def clientViewId : Payload → String
  | .typed input => input.clientViewId
  | .chat input => input.clientViewId

def displayReceiptId : Payload → Option Nat
  | .typed input => input.displayReceiptId
  | .chat input => input.displayReceiptId

def json : Payload → Json
  | .typed input => input.json
  | .chat input => input.json

end Payload

/-! ### Candidates -/

inductive FactName where
  | batteryHealthPct
  | repairHistory
  | allowedDeliveryMethods
  | unsupported
deriving DecidableEq

inductive Operator where
  | atLeast
  | atMost
  | equal
  | contains
deriving DecidableEq

/-- A condition the buyer put on the goods. -/
structure Predicate where
  fact : FactName
  operator : Operator
  value : String
  sourceQuote : String
deriving DecidableEq

theorem positive_none : (none : Option Money).map (·.cents) ≠ some 0 := by decide

theorem few_conditions : ([] : List Predicate).length ≤ 8 := by decide

theorem few_texts : ([] : List String).length ≤ 8 := by decide

/-- An offer in the making. -/
structure Candidate where
  amount : Option Money := none
  delivery : Option DeliveryMethod := none
  payer : Option ShippingPayer := none
  region : Option String := none
  conditions : List Predicate := []
  commitments : List String := []
  positive : amount.map (·.cents) ≠ some 0 := by first | exact positive_none | decide
  fewConditions : conditions.length ≤ 8 := by first | exact few_conditions | decide
  fewCommitments : commitments.length ≤ 8 := by first | exact few_texts | decide
deriving DecidableEq

/-! ### Run configurations -/

/-- The configuration an input is enqueued with; `activeSeconds` is in microseconds. -/
structure Config where
  schema : String := "p1-v1"
  maxCalls : Int := 10
  maxTokens : Int := 180000
  maxCost : Option String := none
  modelName : Option String := none
  promptVersion : Option String := none
  qualityVersion : Option String := none
  activeSeconds : Option Time := none
deriving DecidableEq

/-- `config.get("active_seconds", 120)`: the active time a run may use. -/
def Config.active (config : Config) : Time := config.activeSeconds.getD (seconds 120)

def Config.json (config : Config) : Json :=
  .object
    [("schema", .text config.schema),
      ("max_calls", .number config.maxCalls),
      ("max_tokens", .number config.maxTokens),
      ("max_cost", .option .text config.maxCost),
      ("model_name", .option .text config.modelName),
      ("prompt_version", .option .text config.promptVersion),
      ("quality_version", .option .text config.qualityVersion),
      ("active_seconds", .option (fun time => .number time) config.activeSeconds)]

end Negotiation
