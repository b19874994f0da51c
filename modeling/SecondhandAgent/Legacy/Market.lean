/-
This file models the database of the older runtime: the goods, the rooms of all
sessions and the tasks of the model. The tasks are worked on as their own
service has it, on a view of the database; what that service writes is adopted.
-/

import SecondhandAgent.Business
import SecondhandAgent.Legacy.Offers

namespace Negotiation.Legacy

open Store

/-! ### The database -/

structure Db where
  goods : Table Goods.id := .empty
  rooms : Table Room.id := .empty
  tasks : Table ModelTask.id := .empty
  nextId : Nat := 1

def Db.setRoom (db : Db) (room : Room) : Db := { db with rooms := db.rooms.put room }

/-- The goods that a room is about. -/
def Db.goodsOf (db : Db) (room : Room) : Option Goods := db.goods.get room.session.productId

/-- An approval and the room that it is in. -/
def Db.approval (db : Db) (approvalId : Nat) : Option (Room × ApprovalRequest) :=
  db.rooms.rows.findSome? fun room => (room.approvals.get approvalId).map fun approval =>
    (room, approval)

/-- The session of an offer. -/
def Db.sessionOfOffer (db : Db) (offerId : Nat) : Option Nat :=
  (db.rooms.rows.find? fun room => (room.offers.get offerId).isSome).map (·.id)

/-- `require_legacy_runtime` -/
def requireLegacyRuntime (session : NegotiationSession) : Except ServiceError Unit :=
  require (session.graphVersion = none)
    (.negotiationLifecycleConflict "此会话由新版图管理，请使用对应运行入口")

/-- The session of a buyer, locked for a write. -/
def Db.ownedRoom (db : Db) (sessionId : Nat) (buyerId : String) : Except ServiceError Room := do
  let missing := ServiceError.negotiationNotFound "协商会话不存在或当前买家无权访问"
  let room ← expect (db.rooms.get sessionId) missing
  require (room.session.buyerId = buyerId) missing
  requireLegacyRuntime room.session
  pure room

/-- `_get_owned_context`: the room of an approval of the seller's goods. -/
def Db.sellerRoom (db : Db) (seller : String) (approvalId : Nat) : Except ServiceError Room := do
  let missing := ServiceError.approvalNotFound "审批请求不存在"
  let (room, _) ← expect (db.approval approvalId) missing
  require ((db.goodsOf room).map (·.product.sellerId) = some seller) missing
  requireLegacyRuntime room.session
  pure room

/-- Another approval has the key of the follow-up. -/
def Db.FollowupTaken (db : Db) (approvalId : Nat) (requestId : String) : Prop :=
  ∃ room ∈ db.rooms.rows, ∃ approval ∈ room.approvals.rows,
    approval.id ≠ approvalId ∧ approval.followupRequestId = some requestId

instance (db : Db) (approvalId : Nat) (requestId : String) :
    Decidable (db.FollowupTaken approvalId requestId) :=
  inferInstanceAs (Decidable (∃ room ∈ db.rooms.rows, ∃ approval ∈ room.approvals.rows, _))

/-- Another session was confirmed under the key. -/
def Db.ConfirmationTaken (db : Db) (sessionId : Nat) (requestId : String) : Prop :=
  ∃ room ∈ db.rooms.rows, room.id ≠ sessionId ∧
    room.session.confirmationRequestId = some requestId

instance (db : Db) (sessionId : Nat) (requestId : String) :
    Decidable (db.ConfirmationTaken sessionId requestId) :=
  inferInstanceAs (Decidable (∃ room ∈ db.rooms.rows, _))

/-! ### The tasks -/

/-- What the tasks see of the rest of the database. -/
def Db.surroundings (db : Db) : Surroundings where
  sessions id := (db.rooms.get id).map fun room =>
    { productId := room.session.productId
      version := room.session.version
      version_positive := room.session.version_positive }
  policies id := (policyOf (db.goods.get id)).map fun policy => ⟨policy.version, policy.positive⟩
  sellers id := (db.goods.get id).map (·.product.sellerId)
  offers := db.sessionOfOffer
  approvals id := (db.approval id).map fun (room, approval) =>
    { sessionId := room.id
      offerId := approval.offerId
      status := approval.status
      followupRequestId := approval.followupRequestId
      followupStatus := approval.followupStatus }
  messages sessionId requestId :=
    ((db.rooms.get sessionId).bind (·.messageByRequestId requestId)).isSome

def Db.taskDb (db : Db) : TaskDb :=
  { tasks := db.tasks, others := db.surroundings, nextId := db.nextId }

/-- The follow-up of an approval, as far as the approval is there. -/
def Db.setFollowup (db : Db) (approvalId : Nat) (status : Option ApprovalFollowupStatus) : Db :=
  match db.approval approvalId with
  | none => db
  | some (room, approval) => db.setRoom (room.setApproval { approval with followupStatus := status })

/-- What the service of the tasks has written: the tasks, and the follow-up of the approval
that the task is about. -/
def Db.adopt (db : Db) (written : TaskDb) (approvalId : Option Nat) : Db :=
  let adopted := { db with tasks := written.tasks, nextId := written.nextId }
  match approvalId with
  | none => adopted
  | some approvalId =>
    match written.others.approvals approvalId with
    | none => adopted
    | some approval => adopted.setFollowup approvalId approval.followupStatus

/-- An operation on a task within a transaction. -/
def Db.onTask (db : Db) (task : ModelTask) (operation : TaskDb → Except TaskFailure TaskDb) :
    Except ServiceError Db := do
  let written ← (operation db.taskDb).mapError .task
  pure (db.adopt written task.approvalId)

/-- The task whose lease is that of the token. -/
def Db.requireActiveLease (db : Db) (taskId leaseToken : Nat) (now : Time) :
    Except ServiceError ModelTask := do
  let task ← (lockedTask db.taskDb taskId).mapError .task
  (Legacy.requireActiveLease task leaseToken now).mapError .task
  pure task

/-- `ModelRetryPolicy`, with the checks of its constructor. -/
structure ModelRetryPolicy where
  maxAttempts : Nat
  leaseSeconds : Nat
  attempts : 1 ≤ maxAttempts ∧ maxAttempts ≤ 20 := by decide
  duration : 1 ≤ leaseSeconds ∧ leaseSeconds ≤ 3600 := by decide

/-- A failure of the model, as `classify` sees it, and the delay that the policy draws for the
next attempt. -/
structure ModelFailure where
  category : ModelTaskErrorCategory
  retryable : Bool
  safeMessage : String
  delaySeconds : Nat

/-- `plan_failure`: when the task is tried again, if it is. -/
def planFailure (task : ModelTask) (failure : ModelFailure) (now : Time) : Option Time :=
  if failure.retryable = true ∧ task.attemptCount < task.maxAttempts then
    some (now + seconds (max 1 failure.delaySeconds))
  else none

/-- The task waits for its next attempt, or it has failed. -/
def failOrDefer [Unicode] (task : ModelTask) (leaseToken : Nat) (failure : ModelFailure)
    (now : Time) (db : TaskDb) : Except TaskFailure TaskDb :=
  match planFailure task failure now with
  | some nextRetryAt =>
    deferRetry db task.id leaseToken failure.category nextRetryAt (some failure.safeMessage) now
  | none => failTask db task.id leaseToken failure.category (some failure.safeMessage) now

/-! ### Snapshots -/

/-- The value of a key of an object. -/
def Json.field (name : String) : Json → Option Json
  | .pair (.pair (.text key) value) rest => if key = name then some value else Json.field name rest
  | _ => none

def snapshotField (snapshot : Snapshot) (name : String) : Option Json :=
  (snapshot.find? fun field => field.1 = name).map (·.2)

def negotiationStatusText : NegotiationStatus → String
  | .active => "ACTIVE"
  | .waitingApproval => "WAITING_APPROVAL"
  | .agreed => "AGREED"
  | .closed => "CLOSED"

def offerStatusText : OfferStatus → String
  | .proposed => "PROPOSED"
  | .accepted => "ACCEPTED"
  | .rejected => "REJECTED"
  | .withdrawn => "WITHDRAWN"

def offerProposerText : OfferProposer → String
  | .buyer => "BUYER"
  | .agent => "AGENT"

end Negotiation.Legacy
