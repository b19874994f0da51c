/-
This file models the rows of a negotiation of the older runtime: the session
with its offers, approvals and messages, and the goods that it is about. The
rows of one session are kept together as a room; a transaction looks a room up,
computes its later rows and puts it back.
-/

import SecondhandAgent.ModelTasks
import SecondhandAgent.Pricing

namespace Negotiation.Legacy

open Store

/-! ### Failures -/

/-- What ends a transaction of the services without a commit. -/
inductive ServiceError where
  | negotiationNotFound (text : String)
  | negotiationLifecycleConflict (text : String)
  | invalidNegotiationState (text : String)
  | productUnavailable (text : String)
  | productNotFound (text : String)
  | pricingPolicyNotFound (text : String)
  | policyVersionConflict (text : String)
  | invalidOfferTerms (text : String)
  | offerNotAuthorized (text : String)
  | offerConflict (text : String)
  | offerNotFound (text : String)
  | approvalConflict (text : String)
  | approvalNotFound (text : String)
  | approvalNotAuthorized (text : String)
  | approvalNotExpired (text : String)
  | messageConflict (text : String)
  | incompleteRequest (text : String)
  /-- A follow-up lacks a fact that it needs. -/
  | approvalFollowupProcessing (text : String)
  /-- The tasks refuse the operation. -/
  | task (failure : TaskFailure)
  /-- The database refuses a duplicate key. -/
  | unique
deriving DecidableEq

/-! ### Rows -/

/-- A product on sale and the private rules of its seller. -/
structure Goods where
  id : Nat
  product : Product
  policy : Option SellerPolicy

inductive MessageRole where
  | buyer
  | agent
  | system
deriving DecidableEq

/-- What a message of the agent or of the system says. -/
inductive AgentOutcome where
  | informational
  | counterOffered
  | offerAccepted
  | needsSellerConfirmation
  | rejected
  | clarification
  | safeFailure
  | approvalApproved
  | approvalRejected
  | approvalInvalidated
  | negotiationClosed
deriving DecidableEq

structure NegotiationSession where
  id : Nat
  productId : Nat
  buyerId : String
  graphVersion : Option GraphVersion := none
  status : NegotiationStatus := .active
  currentOfferId : Option Nat := none
  confirmedOfferId : Option Nat := none
  confirmedAt : Option Time := none
  confirmationRequestId : Option String := none
  confirmationSource : Option ConfirmationSource := none
  roundCount : Nat := 0
  version : Nat := 1
  version_positive : 0 < version := by decide
deriving DecidableEq

structure Offer where
  id : Nat
  proposer : OfferProposer
  price : Money
  shippingPaidBy : ShippingPayer
  shippingCost : Option Money
  sellerBorneDiscount : Money
  terms : List (String × String)
  status : OfferStatus := .proposed
  expiresAt : Option Time := none
deriving DecidableEq

structure ApprovalRequest where
  id : Nat
  offerId : Nat
  policyVersion : Nat
  status : ApprovalStatus := .pending
  sellerComment : Option String := none
  expiresAt : Time
  reviewedAt : Option Time := none
  followupStatus : Option ApprovalFollowupStatus := none
  followupRequestId : Option String := none
deriving DecidableEq

structure Message where
  id : Nat
  role : MessageRole
  requestId : String
  requestFingerprint : Option Digest := none
  agentOutcome : Option AgentOutcome := none
  formalOfferId : Option Nat := none
deriving DecidableEq

/-- The rows of one session. -/
structure Room where
  session : NegotiationSession
  offers : Table Offer.id := .empty
  approvals : Table ApprovalRequest.id := .empty
  messages : Table Message.id := .empty

def Room.id (room : Room) : Nat := room.session.id

/-! ### Reading a room -/

def Room.currentOffer (room : Room) : Option Offer :=
  room.session.currentOfferId.bind room.offers.get

def Room.messageByRequestId (room : Room) (requestId : String) : Option Message :=
  room.messages.rows.find? fun message => message.requestId = requestId

/-- `_get_pending` -/
def Room.pending (room : Room) : Option ApprovalRequest :=
  room.approvals.rows.find? fun approval => approval.status = .pending

/-- The last ten offers, the newest one first. -/
def Room.recentOffers (room : Room) : List Offer :=
  (room.offers.rows.insertionSort fun one two => two.id ≤ one.id).take 10

/-- `has_formal_agent_message` -/
def Room.HasFormalAgentMessage (room : Room) (offerId : Nat) (outcome : AgentOutcome) : Prop :=
  ∃ message ∈ room.messages.rows, message.role = .agent ∧
    message.formalOfferId = some offerId ∧ message.agentOutcome = some outcome

instance (room : Room) (offerId : Nat) (outcome : AgentOutcome) :
    Decidable (room.HasFormalAgentMessage offerId outcome) :=
  inferInstanceAs (Decidable (∃ message ∈ room.messages.rows, _))

/-- The product can be negotiated about. -/
def Available (goods : Option Goods) : Prop :=
  goods.map (·.product.status) = some .available

instance (goods : Option Goods) : Decidable (Available goods) :=
  inferInstanceAs (Decidable (_ = _))

def policyOf (goods : Option Goods) : Option SellerPolicy := goods.bind (·.policy)

/-- `_is_expired` of an offer. -/
def Expired (expiresAt : Option Time) (now : Time) : Prop := ∃ due ∈ expiresAt, due ≤ now

instance (expiresAt : Option Time) (now : Time) : Decidable (Expired expiresAt now) :=
  inferInstanceAs (Decidable (∃ due ∈ expiresAt, _))

/-- `_as_database_datetime`: an approval is due by the whole second. -/
def databaseDatetime (instant : Time) : Time := instant / 1000000 * 1000000

/-- `_is_due` of an approval. -/
def IsDue (instant now : Time) : Prop := databaseDatetime instant ≤ now

instance (instant now : Time) : Decidable (IsDue instant now) :=
  inferInstanceAs (Decidable (_ ≤ _))

/-! ### Writing a room -/

/-- The session at its next version. -/
def NegotiationSession.next (session : NegotiationSession) : NegotiationSession :=
  { session with version := session.version + 1, version_positive := Nat.succ_pos _ }

def Room.withStatus (room : Room) (status : NegotiationStatus) : Room :=
  { room with session := { room.session.next with status } }

/-- `_restore_active` -/
def Room.restoreActive (room : Room) : Room :=
  if room.session.status = .waitingApproval then room.withStatus .active else room

def Room.setOffer (room : Room) (offer : Offer) (status : OfferStatus) : Room :=
  { room with offers := room.offers.put { offer with status } }

def Room.setApproval (room : Room) (approval : ApprovalRequest) : Room :=
  { room with approvals := room.approvals.put approval }

/-- A new message; the database refuses the key of another message of the session. -/
def Room.post (room : Room) (message : Message) : Except ServiceError Room := do
  require (room.messageByRequestId message.requestId = none) .unique
  let messages ← room.messages.insert message .unique
  pure { room with messages }

end Negotiation.Legacy
