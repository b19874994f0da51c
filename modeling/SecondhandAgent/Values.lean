/-
This file fixes the values the rows of a negotiation are made of: instants and
the rounding of the columns that keep whole seconds, amounts of money, digests,
and the enumerations of the database. Bounds that the input contracts and the
columns enforce are fields of the types, so a value outside them has no name.
-/

import Mathlib.Data.List.Sort

namespace Negotiation

/-! ### Instants -/

/-- An instant in microseconds, exact in a `DATETIME(6)` column. -/
abbrev Time := Nat

def seconds (count : Nat) : Time := count * 1000000

def minutes (count : Nat) : Time := seconds (60 * count)

def hours (count : Nat) : Time := minutes (60 * count)

/-- What a `DATETIME` column without fractional digits keeps of an instant: the nearest
second. -/
def datetime (instant : Time) : Time := (instant + 500000) / 1000000 * 1000000

/-! ### Money -/

/-- An amount in cents that fits `DECIMAL(12,2)`. -/
structure Money where
  cents : Nat
  bounded : cents ≤ 999999999999 := by decide
deriving DecidableEq

def Money.zero : Money := ⟨0, by decide⟩

theorem fifty_fits : 5000 ≤ 999999999999 := by decide

theorem eighty_fits : 8000 ≤ 999999999999 := by decide

theorem ninety_fits : 9000 ≤ 999999999999 := by decide

theorem hundred_fits : 10000 ≤ 999999999999 := by decide

theorem hundredTen_fits : 11000 ≤ 999999999999 := by decide

/-- The rendering with two decimal places. -/
def Money.text (amount : Money) : String :=
  let rest := amount.cents % 100
  s!"{amount.cents / 100}." ++ (if rest < 10 then s!"0{rest}" else s!"{rest}")

/-! ### Digests -/

/-- A SHA-256 digest. -/
abbrev Digest := BitVec 256

/-- The first twenty of the sixty-four hexadecimal digits. -/
def Digest.leading (digest : Digest) : BitVec 80 := digest.extractLsb' 176 80

/-- The values a digest is taken of. -/
inductive Json where
  | null
  | bool (value : Bool)
  | number (value : Int)
  | text (value : String)
  | digest (value : Digest)
  | pair (first second : Json)
deriving DecidableEq

def Json.list (items : List Json) : Json := items.foldr Json.pair .null

/-- An object; `json.dumps` is called with `sort_keys=True`. -/
def Json.object (fields : List (String × Json)) : Json :=
  .list ((fields.insertionSort fun one two => one.1 ≤ two.1).map fun field =>
    .pair (.text field.1) field.2)

def Json.option {Value : Type} (render : Value → Json) : Option Value → Json
  | none => .null
  | some value => render value

/-- What the program takes from its platform: the digest of a value, the finite decimal
number a text denotes, and the configured name of the model. Nothing is assumed of them. -/
class Platform where
  digest : Json → Digest
  decimal : String → Option Rat
  modelName : String

export Platform (digest decimal modelName)

/-! ### Enumerations -/

inductive GraphVersion where
  | negotiationV1
  | negotiationV2
  | negotiationV3
deriving DecidableEq

/-- `SEMANTIC_VERSIONS`: the versions whose inputs are free text. -/
def GraphVersion.isSemantic : GraphVersion → Bool
  | .negotiationV1 => false
  | .negotiationV2 | .negotiationV3 => true

inductive ProductStatus where
  | draft
  | available
  | unavailable
deriving DecidableEq

inductive NegotiationStatus where
  | active
  | waitingApproval
  | agreed
  | closed
deriving DecidableEq

inductive OfferProposer where
  | buyer
  | agent
deriving DecidableEq

inductive OfferStatus where
  | proposed
  | accepted
  | rejected
  | withdrawn
deriving DecidableEq

/-- The statuses in which an offer can still be acted on. -/
def OfferStatus.IsLive (status : OfferStatus) : Prop :=
  status = .proposed ∨ status = .accepted

instance (status : OfferStatus) : Decidable status.IsLive :=
  inferInstanceAs (Decidable (_ ∨ _))

inductive ApprovalStatus where
  | pending
  | approved
  | rejected
  | cancelled
  | expired
deriving DecidableEq

inductive EffectStatus where
  | notApplied
  | applied
  | invalidated
deriving DecidableEq

inductive InvalidReason where
  | replaced
  | withdrawn
  | closed
  | sellerRejected
  | approvalExpired
  | offerBasisInvalid
deriving DecidableEq

inductive ConfirmationSource where
  | agentCounter
  | autoAcceptedBuyerOffer
  | sellerApprovedBuyerOffer
deriving DecidableEq

inductive ModelTaskStatus where
  | pending
  | running
  | retryWait
  | succeeded
  | failed
  | stale
  | cancelled
deriving DecidableEq

inductive RuntimeKind where
  | v3
  | v4
  | langGraph
deriving DecidableEq

inductive DeliveryStatus where
  | pending
  | running
  | retryWait
  | published
  | manualRequired
deriving DecidableEq

inductive EventStatus where
  | pending
  | delivered
deriving DecidableEq

inductive DraftStatus where
  | pending
  | ready
  | submitted
  | withdrawn
deriving DecidableEq

inductive VerificationStatus where
  | open
  | ready
  | stale
deriving DecidableEq

inductive CallStatus where
  | reserved
  | unknown
  | accepted
  | stale
deriving DecidableEq

inductive InstanceState where
  | registered
  | revoked
  | released
deriving DecidableEq

inductive RecoveryAct where
  | retry
  | terminate
  | notify
deriving DecidableEq

inductive ShippingPayer where
  | buyer
  | seller
deriving DecidableEq

inductive DeliveryMethod where
  | shipping
  | pickup
deriving DecidableEq

end Negotiation
