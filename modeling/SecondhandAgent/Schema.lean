/-
This file models the tables. A `Db` holds the rows of one negotiation session
together with the goods, the seller policy and the seller evidence it is
negotiated under; a row of another session is a row that is not there. Keys
that the program writes as texts (`turn:{run}:reply` and the like) are the
values of an inductive type, so that a key is exactly what it is made of.
-/

import SecondhandAgent.Contracts
import SecondhandAgent.Table

namespace Negotiation

open Store

/-! ### Keys -/

/-- The source of a public notice, and the key of its delivery. -/
inductive SourceId where
  /-- `turn:{run}:reply` -/
  | turnReply (run : Nat)
  /-- `approval:{id}:result:{revision}` -/
  | approvalResult (approvalId revision : Nat)
  /-- `offer:{id}:invalidated` -/
  | offerInvalidated (offerId : Nat)
  /-- `draft-ready:{draft}:{version}` -/
  | draftReady (draftId productVersion : Nat)
deriving DecidableEq

inductive ReceiptId where
  /-- `turn:{run}:action` -/
  | turnAction (run : Nat)
  /-- The digest of the seller and the request. -/
  | sellerApproval (key : Digest)
  /-- `approval:{id}:invalidate:{revision}` -/
  | approvalInvalidate (approvalId revision : Nat)
  /-- `approval:{id}:apply:{digest of the event}` -/
  | approvalApply (approvalId : Nat) (event : BitVec 80)
  /-- `offer:{id}:invalidated` -/
  | offerInvalidated (offerId : Nat)
deriving DecidableEq

/-- The suffix of an approval event. -/
inductive ApprovalSuffix where
  | requested
  | decision
  | invalidated (revision : Nat)
deriving DecidableEq

inductive EventId where
  /-- `approval:{id}:{suffix}` -/
  | approval (approvalId : Nat) (suffix : ApprovalSuffix)
  /-- The event that announces a delivery has the delivery's key. -/
  | delivery (source : SourceId)
deriving DecidableEq

/-- What makes a message unique: the input it is, or the source it was published for. -/
inductive MessageOrigin where
  | input (run : Nat)
  | source (source : SourceId)
deriving DecidableEq

/-- What a recovery action is aimed at. -/
inductive RecoveryTarget where
  | run (run : Nat)
  | notification (source : SourceId)
deriving DecidableEq

/-! ### Goods, policy and evidence -/

structure Product where
  sellerId : String
  title : String
  description : String
  listedPrice : Money
  status : ProductStatus
  productVersion : Nat

/-- The private pricing rules, with the checks of their table. -/
structure SellerPolicy where
  minimumNetPrice : Money
  autoAcceptThreshold : Money
  maxRounds : Nat
  version : Nat
  ordered : minimumNetPrice.cents ≤ autoAcceptThreshold.cents
  rounds : 0 < maxRounds
  positive : 0 < version

theorem SellerPolicy.next_positive (policy : SellerPolicy) : 0 < policy.version + 1 :=
  Nat.succ_pos _

inductive RepairHistory where
  | yes
  | no
  | unknown
deriving DecidableEq

/-- A seller fact in normal form: the health of the battery in hundredths of a percent, the
repair history, or the non-empty set of delivery methods. -/
inductive FactValue where
  | batteryHealthPct (value : Option (Fin 10001))
  | repairHistory (value : RepairHistory)
  | allowedDeliveryMethods (methods : List DeliveryMethod) (nonempty : methods ≠ [])
      (distinct : methods.Nodup)
deriving DecidableEq

def FactValue.factName : FactValue → FactName
  | .batteryHealthPct _ => .batteryHealthPct
  | .repairHistory _ => .repairHistory
  | .allowedDeliveryMethods _ _ _ => .allowedDeliveryMethods

structure ProductFactValue where
  id : Nat
  value : FactValue
  version : Nat

structure ShippingCostRule where
  id : Nat
  region : String
  shippingCost : Money
  discount : Money
  version : Nat
  active : Bool
  expiresAt : Time

/-! ### Offers -/

/-- A formal offer; every offer of a graph session has an expiry. -/
structure Offer where
  id : Nat
  proposer : OfferProposer
  price : Money
  shippingPaidBy : ShippingPayer
  shippingCost : Option Money
  sellerBorneDiscount : Money
  terms : List (String × String)
  status : OfferStatus
  expiresAt : Time
  invalidReason : Option InvalidReason := none

structure GraphOfferEvidence where
  offerId : Nat
  termsHash : Digest
  policyVersion : Nat
  productHash : Digest

inductive EvaluationResult where
  | satisfied
  | unsatisfied
  | unknown
  | unsupported
deriving DecidableEq

/-- Why a candidate cannot be offered yet. -/
inductive Missing where
  | amount
  | delivery
  | payer
  | condition (fact : FactName) (result : EvaluationResult)
  | factAllowedDeliveryMethods
  | deliveryNotAllowed
  | unsupportedCommitment
  | inconsistentDelivery
  | region
  | costUnknown
  | costAmbiguous
  | dependencyUnresolved
deriving DecidableEq

structure Evaluation where
  predicateId : Nat
  fact : FactName
  factVersion : Option Nat
  expectedValue : String
  operator : Operator
  result : EvaluationResult
deriving DecidableEq

/-- What a quotation rests on. -/
structure CostSnapshot where
  ruleId : Option Nat
  ruleVersion : Option Nat
  shippingCost : Money
  discount : Money
  deliveryFactVersion : Option Nat
deriving DecidableEq

structure CostQuote where
  id : Nat
  snapshot : CostSnapshot
  expiresAt : Time

structure SemanticOfferBasis where
  offerId : Nat
  costQuoteId : Nat
  candidate : Candidate
  evaluations : List Evaluation

/-! ### Approvals -/

structure ApprovalRequest where
  id : Nat
  offerId : Nat
  policyVersion : Nat
  status : ApprovalStatus
  sellerComment : Option String := none
  effectStatus : EffectStatus
  effectRevision : Nat
  invalidReason : Option InvalidReason := none
  expiresAt : Time
  reviewedAt : Option Time := none
  followupRequestId : Option Digest := none
  decisionHash : Option Digest := none

/-- Who executes the approval's graph. -/
structure ApprovalExecution where
  approvalId : Nat
  leaseToken : Option Nat := none
  leaseUntil : Option Time := none
  ownershipEpoch : Nat := 0
  checkpointRef : Option Nat := none
  recoveryRequired : Bool := false
  attempts : Nat := 0
  nextRetryAt : Option Time := none

/-! ### Results, receipts and deliveries -/

inductive Outcome where
  | offerAccepted
  | waitingApproval
  | offerRejected
  | counterOffered
  | intentConfirmed
  | offerWithdrawn
  | sessionClosed
  | approvalRejected
  | approvalInvalidated
  | offerInvalidated
  | notExecuted
  | productInfo
deriving DecidableEq

/-- The JSON object a command or an application answers with. -/
structure Result where
  outcome : Outcome
  offerId : Option Nat := none
  approvalId : Option Nat := none
  buyerOfferId : Option Nat := none
  reused : Bool := false
  businessVersion : Option Nat := none
  effectRevision : Option Nat := none
  invalidReason : Option InvalidReason := none
  reason : Option String := none
  title : Option String := none
  description : Option String := none
  publicAnswer : Option String := none
deriving DecidableEq

inductive ReceiptResult where
  | business (result : Result)
  | decision (approvalId : Nat) (decision : ApprovalStatus)
deriving DecidableEq

structure BusinessActionReceipt where
  id : ReceiptId
  inputId : Option Nat := none
  commandHash : Digest
  result : ReceiptResult
  beforeVersion : Nat
  afterVersion : Nat
  committedAt : Time

structure NotificationDelivery where
  id : SourceId
  inputId : Option Nat := none
  approvalId : Option Nat := none
  status : DeliveryStatus := .pending
  result : Result
  replyDeadline : Time
  publicMessageId : Option Nat := none
  leaseToken : Option Nat := none
  leaseUntil : Option Time := none
  attempts : Nat := 0
  nextRetryAt : Option Time := none

/-- The payload of an outbox event. -/
inductive EventPayload where
  | requested (approvalId : Nat)
  | decided (approvalId : Nat)
  | invalidated (approvalId : Nat)
  | delivery (source : SourceId)
deriving DecidableEq

structure OutboxEvent where
  id : EventId
  deliveryId : Option SourceId := none
  approvalId : Option Nat := none
  payload : EventPayload
  status : EventStatus := .pending

/-! ### Inputs and tasks -/

structure NegotiationInput where
  id : Nat
  taskId : Nat
  inputSeq : Nat
  requestId : String
  payload : Payload
  inputHash : Digest
  config : Config
  configHash : Digest
  graphVersion : GraphVersion
  receivedAt : Time
  seenPublicMessageSeq : Nat
  recoveryRequired : Bool := false
  activeMs : Nat := 0
  activeSince : Option Time := none
  activeUntil : Option Time := none
  closingDeadline : Option Time := none

structure ModelExecutionTask where
  id : Nat
  runtimeKind : RuntimeKind := .langGraph
  status : ModelTaskStatus := .pending
  ownershipEpoch : Nat := 0
  leaseToken : Option Nat := none
  leaseOwner : Option Nat := none
  leaseExpiresAt : Option Time := none
  nextRetryAt : Option Time := none
  attemptCount : Nat := 0
  maxAttempts : Nat := 3
  manualRetryCount : Nat := 0
  lastManualAction : Option RecoveryAct := none

namespace ModelExecutionTask

/-- The constraint `lease_matches_running_status`. -/
def LeaseMatchesRunningStatus (task : ModelExecutionTask) : Prop :=
  (task.status = .running ∧ task.leaseOwner ≠ none ∧ task.leaseToken ≠ none ∧
      task.leaseExpiresAt ≠ none) ∨
    (task.status ≠ .running ∧ task.leaseOwner = none ∧ task.leaseToken = none ∧
      task.leaseExpiresAt = none)

/-- The constraint `retry_time_matches_status`. -/
def RetryTimeMatchesStatus (task : ModelExecutionTask) : Prop :=
  (task.status = .retryWait ∧ task.nextRetryAt ≠ none) ∨
    (task.status ≠ .retryWait ∧ task.nextRetryAt = none)

/-- The check constraints of the table that relate its nullable columns to the status. -/
def Lawful (task : ModelExecutionTask) : Prop :=
  task.LeaseMatchesRunningStatus ∧ task.RetryTimeMatchesStatus

instance (task : ModelExecutionTask) : Decidable task.Lawful :=
  inferInstanceAs (Decidable ((_ ∧ _ ∧ _ ∧ _ ∨ _ ∧ _ ∧ _ ∧ _) ∧ (_ ∧ _ ∨ _ ∧ _)))

end ModelExecutionTask

/-- A task row the database holds: it satisfies the constraints. -/
abbrev StoredTask := { task : ModelExecutionTask // task.Lawful }

def StoredTask.id (stored : StoredTask) : Nat := stored.val.id

structure GraphExecutionInstance where
  id : Nat
  inputId : Nat
  leaseToken : Option Nat := none
  ownershipEpoch : Option Nat := none
  registeredAt : Time
  state : InstanceState := .registered

structure GraphRecoveryAction where
  id : Digest
  target : RecoveryTarget
  action : RecoveryAct
  reason : String

/-! ### Public messages and what they show -/

structure DraftRef where
  id : Nat
  version : Nat
deriving DecidableEq

inductive Card where
  | offer (offerId : Nat) (canConfirm : Bool) (contextId : Option Nat)
  | drafts (contextId : Nat) (refs : List DraftRef)
deriving DecidableEq

structure Message where
  id : Nat
  origin : MessageOrigin
  publicSeq : Option Nat := none
  card : Option Card := none
  formalOfferId : Option Nat := none

/-- The column `terms_hash` of a context: the digest of an offer's terms, or `drafts-v1`. -/
inductive TermsMark where
  | offer (hash : Digest)
  | drafts
deriving DecidableEq

structure PublicInteractionContext where
  id : Nat
  buyerId : String
  messageId : Nat
  publicSeq : Nat
  offerId : Option Nat := none
  draftRefs : Option (List DraftRef) := none
  refreshKey : Option Digest := none
  termsHash : TermsMark
  businessVersion : Nat
  expiresAt : Time

structure DisplayAck where
  id : Nat
  contextId : Nat
  buyerId : String
  clientViewId : String
  requestId : String
  displayedAt : Time

/-! ### Semantic turns -/

structure OfferDraft where
  id : Nat
  inputId : Nat
  version : Nat := 1
  candidate : Candidate
  missing : List Missing
  businessVersion : Nat
  status : DraftStatus := .pending
  expiresAt : Time

structure VerificationItem where
  id : Nat
  draftId : Nat
  status : VerificationStatus := .open
  reasons : List Missing
  notifiedVersion : Option Nat := none

structure SemanticTurn where
  inputId : Nat
  command : TypedInput
  draftIds : List Nat
  selectedDraftId : Option Nat

structure ModelCallLedger where
  id : Nat
  inputId : Nat
  stepKey : Digest
  acceptedKey : Option Digest := none
  ownershipEpoch : Nat
  status : CallStatus
  reservedTokens : Int
  actualTokens : Option Int := none
  reservedCost : Option Int := none
  actualCost : Option Int := none
  value : Option Json := none
  valueHash : Option Digest := none

/-! ### The database -/

structure NegotiationSession where
  buyerId : String
  graphVersion : GraphVersion
  status : NegotiationStatus := .active
  currentOfferId : Option Nat := none
  confirmedOfferId : Option Nat := none
  confirmedAt : Option Time := none
  confirmationRequestId : Option Nat := none
  confirmationSource : Option ConfirmationSource := none
  roundCount : Nat := 0
  version : Nat := 1
  archivedAt : Option Time := none
  nextInputSeq : Nat := 1
  lastResolvedInputSeq : Nat := 0
  nextPublicSeq : Nat := 1

/-- The tables. `nextId` is the supply of identifiers: the automatic keys, the random ones
and the lease tokens all come from it. -/
structure Db where
  session : NegotiationSession
  product : Product
  policy : SellerPolicy
  facts : Table ProductFactValue.id
  rules : Table ShippingCostRule.id
  offers : Table Offer.id := .empty
  evidence : Table GraphOfferEvidence.offerId := .empty
  quotes : Table CostQuote.id := .empty
  bases : Table SemanticOfferBasis.offerId := .empty
  approvals : Table ApprovalRequest.id := .empty
  executions : Table ApprovalExecution.approvalId := .empty
  receipts : Table BusinessActionReceipt.id := .empty
  deliveries : Table NotificationDelivery.id := .empty
  outbox : Table OutboxEvent.id := .empty
  inputs : Table NegotiationInput.id := .empty
  tasks : Table StoredTask.id := .empty
  instances : Table GraphExecutionInstance.id := .empty
  actions : Table GraphRecoveryAction.id := .empty
  messages : Table Message.origin := .empty
  contexts : Table PublicInteractionContext.id := .empty
  acks : Table DisplayAck.id := .empty
  drafts : Table OfferDraft.id := .empty
  verifications : Table VerificationItem.id := .empty
  turns : Table SemanticTurn.inputId := .empty
  ledger : Table ModelCallLedger.id := .empty
  nextId : Nat := 1

/-- Write a task row back; the database checks its constraints. -/
def Db.saveTask (db : Db) (task : ModelExecutionTask) : Except Failure Db :=
  if lawful : task.Lawful then .ok { db with tasks := db.tasks.put ⟨task, lawful⟩ }
  else .error .check

end Negotiation
