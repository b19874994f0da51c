/-
This file models the service behind the approvals: the seller's review, the
application of its result, the reconciliation of an approval or an offer whose
basis is gone, and the ownership and the events of the process that executes
the approval's graph.
-/

import Mathlib.Algebra.Group.Nat.Defs
import SecondhandAgent.Business
import SecondhandAgent.Queue

namespace Negotiation

open Store

/-! ### Ownership of an execution -/

def lockExecution (db : Db) (approvalId : Nat) (owner : Owner) (now : Time) :
    Except Failure ApprovalExecution := do
  let stale := Failure.staleOwner "审批执行所有权已失效"
  let execution ← expect (db.executions.get approvalId) stale
  require (execution.leaseToken = some owner.1 ∧ execution.ownershipEpoch = owner.2 ∧
    Ahead execution.leaseUntil now) stale
  pure execution

/-- `GraphApprovalService.claim` -/
def claimExecution (db : Db) (approvalId : Nat) (now : Time) : Db × Option Owner :=
  match db.executions.get approvalId with
  | none => (db, none)
  | some row =>
    if row.recoveryRequired ∨ Ahead row.leaseUntil now ∨ Ahead row.nextRetryAt now then
      (db, none)
    else
      ({ db with
          executions := db.executions.put
            { row with
              leaseToken := some db.nextId
              leaseUntil := some (now + seconds 30)
              ownershipEpoch := row.ownershipEpoch + 1 }
          nextId := db.nextId + 1 },
        some (db.nextId, row.ownershipEpoch + 1))

/-- `GraphApprovalService.release` -/
def releaseExecution (db : Db) (approvalId : Nat) (owner : Owner) (checkpoint : Option Nat)
    (failed recovery : Bool) (checked retried : Time) : Except Failure Db := do
  let row ← lockExecution db approvalId owner checked
  let attempts := if failed then row.attempts + 1 else 0
  pure
    { db with
      executions := db.executions.put
        { row with
          checkpointRef := checkpoint.or row.checkpointRef
          attempts
          recoveryRequired := recovery || decide (3 ≤ attempts)
          nextRetryAt := if failed then some (retried + seconds (2 ^ attempts)) else none
          leaseToken := none
          leaseUntil := none } }

/-! ### Events -/

/-- The event belongs to the approval and is not the one of a delivery. -/
def EventOf (event : OutboxEvent) (approvalId : Nat) : Prop :=
  event.approvalId = some approvalId ∧ event.deliveryId = none

instance (event : OutboxEvent) (approvalId : Nat) : Decidable (EventOf event approvalId) :=
  inferInstanceAs (Decidable (_ ∧ _))

def pendingEvents (db : Db) (approvalId : Nat) : List EventId :=
  (db.outbox.rows.filter fun event => EventOf event approvalId ∧ event.status = .pending).map
    (·.id)

/-- The place of a terminal event in the order of the keys, with the decision first. -/
def terminalRank : EventId → Option Nat
  | .approval _ .decision => some 0
  | .approval _ (.invalidated revision) => some (revision + 1)
  | _ => none

/-- The later of two terminal events. -/
def laterEvent (best : Option EventId) (event : EventId) : Option EventId :=
  match terminalRank event, best.bind terminalRank with
  | none, _ => best
  | some _, none => some event
  | some rank, some kept => if kept < rank then some event else best

/-- The last event that says what became of the approval. -/
def terminalEvent (db : Db) (approvalId : Nat) : Except Failure (Option EventId) := do
  let approval ← expect (db.approvals.get approvalId) .missing
  if approval.status = .pending then pure none
  else
    pure (((db.outbox.rows.filter fun event => EventOf event approvalId).map (·.id)).foldl
      laterEvent none)

/-- Mark one event of the approval as delivered. -/
def acknowledgeEvent (approvalId : Nat) (db : Db) (key : EventId) : Db :=
  match (db.outbox.get key).filter fun event => event.approvalId = some approvalId with
  | none => db
  | some event => { db with outbox := db.outbox.put { event with status := .delivered } }

def acknowledge (db : Db) (approvalId : Nat) (events : List EventId) (owner : Owner)
    (now : Time) : Except Failure Db := do
  let _ ← lockExecution db approvalId owner now
  pure (events.foldl (acknowledgeEvent approvalId) db)

/-- The event of an invalidation that a result of the given revision covers. -/
def coversInvalidation (approvalId : Nat) (result : Result) : EventId → Bool
  | .approval id (.invalidated revision) =>
    id = approvalId && revision ≤ result.effectRevision.getD 0
  | _ => false

/-- The events a result settles; an invalidation settles the older decision as well. -/
def coveredEvents (db : Db) (approvalId : Nat) (result : Option Result) : List EventId :=
  [.approval approvalId .requested, .approval approvalId .decision] ++
    match result with
    | none => []
    | some result =>
      if result.outcome = .approvalInvalidated then
        (pendingEvents db approvalId).filter (coversInvalidation approvalId result)
      else []

/-! ### Texts of a review -/

/-- `[A-Za-z0-9]` -/
def isWordLetter (letter : Char) : Bool :=
  ('a' ≤ letter && letter ≤ 'z') || ('A' ≤ letter && letter ≤ 'Z') ||
    ('0' ≤ letter && letter ≤ '9')

/-- The form of a request identifier. -/
def isRequestId (text : String) : Bool :=
  match text.toList with
  | [] => false
  | first :: rest =>
    isWordLetter first && rest.all fun letter =>
      isWordLetter letter || letter = '.' || letter = '_' || letter = ':' || letter = '-'

/-- `_validated_request_id` -/
def validatedRequestId (requestId : String) : Except Failure String := do
  let stored := strip requestId
  require (1 ≤ stored.length ∧ stored.length ≤ 64 ∧ isRequestId stored = true)
    (.approvalConflict "审批幂等键格式不正确")
  pure stored

/-- `_validated_comment` -/
def validatedComment (comment : Option String) : Except Failure (Option String) := do
  let stored := comment.map strip
  require ((stored.map (·.length)).getD 0 ≤ 2000) (.approvalConflict "卖家意见不能超过 2000 个字符")
  pure (stored.filter (· ≠ ""))

/-! ### Reconciliation -/

/-- `lock_context`: the approval and its offer; a seller has to own the goods. -/
def lockContext (db : Db) (approvalId : Nat) (seller : Option String) :
    Except Failure (Offer × ApprovalRequest) := do
  let absent := Failure.approvalNotFound "审批请求不存在"
  let approval ← expect (db.approvals.get approvalId) absent
  require (seller = none ∨ seller = some db.product.sellerId) absent
  let offer ← expect (db.offers.get approval.offerId) .missing
  pure (offer, approval)

/-- The session with its version raised if the offer is its current one. -/
def Db.bumpIfCurrent (db : Db) (offerId : Nat) : Db :=
  if db.session.currentOfferId = some offerId then
    { db with session := { db.session with version := db.session.version + 1 } }
  else db

variable [Platform]

/-- The approval was not answered in time. -/
def TimedOut (approval : ApprovalRequest) (now : Time) : Prop :=
  approval.status = .pending ∧ approval.expiresAt ≤ now

instance (approval : ApprovalRequest) (now : Time) : Decidable (TimedOut approval now) :=
  inferInstanceAs (Decidable (_ ∧ _))

/-- Nothing is left to reconcile: the session is agreed, or the approval is at its end. -/
def Settled (db : Db) (approval : ApprovalRequest) : Prop :=
  db.session.status = .agreed ∨ approval.effectStatus = .invalidated ∨
    approval.status = .rejected

instance (db : Db) (approval : ApprovalRequest) : Decidable (Settled db approval) :=
  inferInstanceAs (Decidable (_ ∨ _ ∨ _))

/-- End an approval that timed out or whose offer lost its basis, and the offer with it. -/
def reconcileApproval (db : Db) (offer : Offer) (approval : ApprovalRequest) (now : Time) :
    Except Failure Db :=
  if Settled db approval then pure db
  else if TimedOut approval now ∨ ¬ BasisValid db offer now then do
    let expired : Bool := TimedOut approval now
    let reason := if expired then .approvalExpired else .offerBasisInvalid
    let bumped := db.bumpIfCurrent offer.id
    let ended ← invalidateApproval bumped approval now reason expired db.session.version
      bumped.session.version
    invalidateOffer ended (some offer) now reason
  else pure db

/-- `GraphApprovalService.reconcile` -/
def reconcile (db : Db) (approvalId : Nat) (now : Time) : Except Failure Db := do
  let (offer, approval) ← lockContext db approvalId none
  reconcileApproval db offer approval now

/-- End a current offer without an approval, with a notice of its own. -/
def invalidateCurrent (db : Db) (offer : Offer) (now : Time) : Except Failure Db := do
  let bumped := { db with session := { db.session with version := db.session.version + 1 } }
  let ended ← invalidateOffer bumped (some offer) now .offerBasisInvalid
  let result : Result :=
    { outcome := .offerInvalidated
      offerId := some offer.id
      businessVersion := some ended.session.version }
  let source := SourceId.offerInvalidated offer.id
  let receipts ← ended.receipts.insert
    { id := .offerInvalidated offer.id
      commandHash := digest (.list [.number offer.id, .text "INVALIDATED"])
      result := .business result
      beforeVersion := db.session.version
      afterVersion := ended.session.version
      committedAt := now } .unique
  let deliveries ← ended.deliveries.insert
    { id := source, result, replyDeadline := now } .unique
  let outbox ← ended.outbox.insert
    { id := .delivery source, deliveryId := some source, payload := .delivery source } .unique
  pure { ended with receipts, deliveries, outbox }

/-- Reconcile the current offer of the session, with its approval if it has one. -/
def reconcileOffer (db : Db) (now : Time) : Except Failure Db :=
  match db.session.currentOfferId with
  | none => pure db
  | some offerId =>
    if db.session.status = .agreed ∨ db.session.status = .closed then pure db
    else do
      let offer ← expect (db.offers.get offerId) .missing
      match db.approvalOf offer.id with
      | some approval => reconcileApproval db offer approval now
      | none => if BasisValid db offer now then pure db else invalidateCurrent db offer now

/-! ### The seller's review -/

def ApprovalStatus.text : ApprovalStatus → String
  | .pending => "PENDING"
  | .approved => "APPROVED"
  | .rejected => "REJECTED"
  | .cancelled => "CANCELLED"
  | .expired => "EXPIRED"

/-- The offer the seller rejected, and the session without it. -/
def rejectReviewed (db : Db) (offer : Offer) (approval : ApprovalRequest) : Db :=
  { db with
    offers := db.offers.put
      { offer with status := .rejected, invalidReason := some .sellerRejected }
    approvals := db.approvals.put
      { approval with
        effectStatus := .applied
        effectRevision := approval.effectRevision + 1 }
    session :=
      if db.session.currentOfferId = some offer.id then
        { db.session with
          currentOfferId := none
          status := .active
          version := db.session.version + 1 }
      else db.session }

/-- The approval with the decision of the seller. -/
def ApprovalRequest.decided (approval : ApprovalRequest) (approved : Bool)
    (comment : Option String) (key hash : Digest) (now : Time) : ApprovalRequest :=
  { approval with
    status := if approved then .approved else .rejected
    reviewedAt := some (datetime now)
    sellerComment := comment
    followupRequestId := some key
    decisionHash := some hash }

/-- The rows a decision changes: an approval waits for its application, a rejection is applied
here. -/
def writeDecision (db : Db) (offer : Offer) (decided : ApprovalRequest) (approved : Bool) : Db :=
  let written := { db with approvals := db.approvals.put decided }
  let recorded := eventInTransaction written decided.id .decision (.decided decided.id)
  if approved then recorded else rejectReviewed recorded offer decided

/-- The notice of a decision: a rejection is final, so that its buyer is told at once. -/
def noticeDecision (db : Db) (decided : ApprovalRequest) (approved : Bool) (now : Time) : Db :=
  if approved then db
  else effectNotice db
    { decided with effectStatus := .applied, effectRevision := decided.effectRevision + 1 }
    .approvalRejected now

/-- Record a decision with its receipt. -/
def decideApproval (db : Db) (offer : Offer) (approval : ApprovalRequest) (approved : Bool)
    (comment : Option String) (key hash : Digest) (beforeVersion : Nat) (now : Time)
    (fault : Option FaultPoint) : Except Failure Db := do
  let decided := approval.decided approved comment key hash now
  require (∀ other ∈ db.approvals.rows, other.followupRequestId ≠ some key) .unique
  raiseAt fault .decision
  let written := writeDecision db offer decided approved
  raiseAt fault .effect
  let receipts ← written.receipts.insert
    { id := .sellerApproval key
      commandHash := hash
      result := .decision approval.id decided.status
      beforeVersion
      afterVersion := written.session.version
      committedAt := now } .unique
  raiseAt fault .receipt
  let noticed := noticeDecision { written with receipts } decided approved now
  raiseAt fault .notification
  raiseAt fault .outbox
  pure noticed

/-- The part of a review that runs when its request has no receipt yet. -/
def reviewNew (db : Db) (offer : Offer) (approval : ApprovalRequest) (approved : Bool)
    (comment : Option String) (expectedRevision : Option Nat) (key hash : Digest) (now : Time)
    (fault : Option FaultPoint) : Except Failure (Db × Option String) := do
  require (expectedRevision = some approval.effectRevision)
    (.approvalConflict "审批效力版本已改变，请刷新后操作")
  require (approval.status = .pending) (.approvalConflict "审批请求已经处理")
  let reconciled ← reconcileApproval db offer approval now
  let current ← expect (reconciled.approvals.get approval.id) .missing
  if current.effectStatus = .invalidated then
    pure (reconciled, some "审批已到期或关联报价依据已失效")
  else do
    let decided ← decideApproval reconciled offer current approved comment key hash
      db.session.version now fault
    pure (decided, none)

/-- The seller decides an approval. The answer is the conflict that is raised after the
transaction, if there is one: a review that finds the approval at its end commits that end. -/
def review (db : Db) (seller : String) (approvalId : Nat) (requestId : String)
    (comment : Option String) (approved : Bool) (expectedRevision : Option Nat) (now : Time)
    (fault : Option FaultPoint) : Except Failure (Db × Option String) := do
  let requestId ← validatedRequestId requestId
  let comment ← validatedComment comment
  let hash := digest (.list
    [.text seller, .number approvalId, .bool approved, .option .text comment,
      .option (fun revision => .number revision) expectedRevision])
  let key := digest (.list [.text "seller-approval", .text seller, .text requestId])
  let (offer, approval) ← lockContext db approvalId (some seller)
  match db.receipts.get (.sellerApproval key) with
  | some old => do
    require (old.commandHash = hash) (.approvalConflict "审批幂等键载荷冲突")
    pure (db, none)
  | none => reviewNew db offer approval approved comment expectedRevision key hash now fault

/-! ### The application of a result -/

def ApprovalSuffix.json : ApprovalSuffix → Json
  | .requested => .text "requested"
  | .decision => .text "decision"
  | .invalidated revision => .list [.text "invalidated", .number revision]

def SourceId.json : SourceId → Json
  | .turnReply run => .list [.text "turn", .number run, .text "reply"]
  | .approvalResult approvalId revision =>
    .list [.text "approval", .number approvalId, .text "result", .number revision]
  | .offerInvalidated offerId => .list [.text "offer", .number offerId, .text "invalidated"]
  | .draftReady draftId version => .list [.text "draft-ready", .number draftId, .number version]

def EventId.json : EventId → Json
  | .approval approvalId suffix => .list [.text "approval", .number approvalId, suffix.json]
  | .delivery source => source.json

def EventPayload.json : EventPayload → Json
  | .requested approvalId => .list [.number approvalId, .text "REQUESTED"]
  | .decided approvalId => .list [.number approvalId, .text "DECIDED"]
  | .invalidated approvalId => .list [.number approvalId, .text "INVALIDATED"]
  | .delivery source => .list [source.json]

/-- The event tells of a decision or an invalidation of the approval. -/
def IsTerminal (event : OutboxEvent) (approvalId : Nat) : Prop :=
  EventOf event approvalId ∧
    (event.payload = .decided approvalId ∨ event.payload = .invalidated approvalId)

instance (event : OutboxEvent) (approvalId : Nat) : Decidable (IsTerminal event approvalId) :=
  inferInstanceAs (Decidable (_ ∧ (_ ∨ _)))

/-- The result an applied approval answers with. -/
def appliedResult (approval : ApprovalRequest) : Result where
  outcome :=
    if approval.effectStatus = .invalidated then .approvalInvalidated
    else if approval.status = .approved then .offerAccepted
    else .approvalRejected
  approvalId := some approval.id
  effectRevision := some approval.effectRevision

/-- Apply an approval that was given: the offer is accepted and the session goes on. The
status of the session is not looked at. -/
def applyApproved (db : Db) (offer : Offer) (approval : ApprovalRequest) : Except Failure Db := do
  require (Found approval.reviewedAt fun reviewed => reviewed < approval.expiresAt)
    (.conflict "缺少响应期限内的真实卖家决定")
  pure
    { db with
      offers := db.offers.put { offer with status := .accepted }
      session := { db.session with status := .active, version := db.session.version + 1 }
      approvals := db.approvals.put
        { approval with
          effectStatus := .applied
          effectRevision := approval.effectRevision + 1 } }

/-- Apply the approval if it was given and is not applied yet. -/
def applyEffect (db : Db) (offer : Offer) (approval : ApprovalRequest) : Except Failure Db :=
  if approval.status = .approved ∧ approval.effectStatus = .notApplied then
    applyApproved db offer approval
  else pure db

/-- The part of an application that runs when its event has no receipt yet. -/
def applyNew (db : Db) (offer : Offer) (approval : ApprovalRequest) (key : ReceiptId)
    (hash : Digest) (now : Time) (fault : Option FaultPoint) : Except Failure (Db × Result) := do
  let reconciled ← reconcileApproval db offer approval now
  let current ← expect (reconciled.approvals.get approval.id) .missing
  require (current.status ≠ .pending) (.conflict "审批尚无真实终态事件")
  let applied ← applyEffect reconciled offer current
  raiseAt fault .effect
  let final ← expect (applied.approvals.get approval.id) .missing
  let result := appliedResult final
  let receipts ← applied.receipts.insert
    { id := key
      commandHash := hash
      result := .business result
      beforeVersion := db.session.version
      afterVersion := applied.session.version
      committedAt := now } .unique
  raiseAt fault .receipt
  let noticed := effectNotice { applied with receipts } final result.outcome now
  raiseAt fault .notification
  raiseAt fault .outbox
  pure (noticed, result)

/-- The result of a receipt of an application. -/
def ReceiptResult.business? : ReceiptResult → Option Result
  | .business result => some result
  | .decision _ _ => none

/-- `GraphApprovalService.apply` -/
def applyApproval (db : Db) (approvalId : Nat) (eventId : EventId) (owner : Owner) (now : Time)
    (fault : Option FaultPoint) : Except Failure (Db × Result) := do
  let _ ← lockExecution db approvalId owner now
  let (offer, approval) ← lockContext db approvalId none
  let event ← expect (db.outbox.get eventId) (.conflict "审批事件引用无效")
  require (IsTerminal event approvalId) (.conflict "审批事件引用无效")
  let key := ReceiptId.approvalApply approvalId (digest eventId.json).leading
  let hash := digest (.list [.number approvalId, eventId.json, event.payload.json])
  match db.receipts.get key with
  | some receipt => do
    require (receipt.commandHash = hash) (.conflict "审批事件载荷冲突")
    let result ← expect receipt.result.business? .missing
    pure (db, result)
  | none => applyNew db offer approval key hash now fault

end Negotiation
