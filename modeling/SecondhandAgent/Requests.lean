/-
This file proves that the requests of buyers and operators are idempotent. Five
entry points keep a request in five ways: under a request identifier among the
inputs, the acknowledgements or the contexts, or under a digest among the
actions or the receipts. What each of them looks up is there once, and it is
never taken back, so that whoever comes back with a request is answered with
the first answer or refused, and no row changes.
-/

import SecondhandAgent.Agreement
import SecondhandAgent.Backing
import SecondhandAgent.Cursor
import SecondhandAgent.Publishing
import SecondhandAgent.Session

namespace Negotiation

open Store

/-! ### Requests -/

/-- What a client sends, without what the service adds to it. -/
inductive Request where
  | enqueue (buyerId requestId : String) (payload : Payload)
  | display (buyerId : String) (contextId : Nat) (viewId requestId : String)
  | refresh (buyerId : String) (contextId : Nat) (requestId : String)
  | act (seller : String) (target : RecoveryTarget) (action : RecoveryAct)
      (requestId reason : String)
  | review (seller : String) (approvalId : Nat) (requestId : String) (comment : Option String)
      (approved : Bool) (expectedRevision : Option Nat)

/-- What the service adds when the request is served: its configuration, the clock as it is read,
and the point at which it fails. -/
structure Moment where
  config : Option Config := none
  compared : Time
  checked : Time
  displayed : Time
  fault : Option FaultPoint := none

/-- What a client is answered. A review that finds the approval at its end commits that end and
is refused with a text. -/
inductive Reply where
  | input (runId : Nat)
  | ack (ackId : Nat)
  | context (contextId : Nat)
  | recorded
  | decided
  | refused (text : String)
deriving DecidableEq

/-- What a request is found by when it comes back. -/
inductive RequestKey where
  | enqueue (buyerId requestId : String)
  | display (buyerId viewId requestId : String)
  | refresh (buyerId : String) (key : Digest)
  | act (key : Digest)
  | review (key : Digest)
deriving DecidableEq

section

variable [Platform]

namespace Request

/-- The transaction that serves the request. -/
def transaction (moment : Moment) : Request → Transaction
  | enqueue buyerId requestId payload =>
    .enqueue buyerId requestId payload moment.config moment.compared
  | display buyerId contextId viewId requestId =>
    .display buyerId contextId viewId requestId moment.compared moment.checked moment.displayed
  | refresh buyerId contextId requestId =>
    .refreshContext buyerId contextId requestId moment.compared
  | act seller target action requestId reason =>
    .act seller target action requestId reason moment.compared
  | review seller approvalId requestId comment approved expectedRevision =>
    .review seller approvalId requestId comment approved expectedRevision moment.compared
      moment.fault

/-- The digest a context is refreshed under. -/
def refreshKey (buyerId requestId : String) : Digest :=
  digest (.list [.text buyerId, .text requestId])

/-- The digest a recovery action is recorded under. -/
def actKey (seller requestId : String) : Digest :=
  digest (.list [.text seller, .text requestId])

/-- The digest a decision of the seller is recorded under. -/
def reviewKey (seller requestId : String) : Digest :=
  digest (.list [.text "seller-approval", .text seller, .text (strip requestId)])

/-- The digest of what the seller decides. -/
def reviewHash (seller : String) (approvalId : Nat) (comment : Option String) (approved : Bool)
    (expectedRevision : Option Nat) : Digest :=
  digest (.list
    [.text seller, .number approvalId, .bool approved,
      .option .text ((comment.map strip).filter (· ≠ "")),
      .option (fun revision => .number revision) expectedRevision])

def key : Request → RequestKey
  | enqueue buyerId requestId _ => .enqueue buyerId requestId
  | display buyerId _ viewId requestId => .display buyerId viewId requestId
  | refresh buyerId _ requestId => .refresh buyerId (refreshKey buyerId requestId)
  | act seller _ _ requestId _ => .act (actKey seller requestId)
  | review seller _ requestId _ _ _ => .review (reviewKey seller requestId)

end Request

omit [Platform] in
theorem holds_of_find? {Row : Type} {rows : List Row} {holds : Row → Prop} [DecidablePred holds]
    {row : Row} (found : rows.find? (fun other => holds other) = some row) : holds row := by
  have kept := List.find?_some found
  exact of_decide_eq_true kept

/-- The request is recorded with its answer. -/
def Recorded (db : Db) : Request → Reply → Prop
  | .enqueue buyerId requestId payload, .input runId =>
    db.session.buyerId = buyerId ∧ ∃ run ∈ db.inputs, run.id = runId ∧
      run.requestId = requestId ∧ run.inputHash = digest payload.json
  | .display buyerId contextId viewId requestId, .ack ackId =>
    ∃ ack ∈ db.acks, ack.id = ackId ∧ ack.buyerId = buyerId ∧ ack.clientViewId = viewId ∧
      ack.requestId = requestId ∧ ack.contextId = contextId
  | .refresh buyerId contextId requestId, .context shown =>
    ∃ original ∈ db.contexts, ∃ context ∈ db.contexts, original.id = contextId ∧
      original.buyerId = buyerId ∧ context.id = shown ∧
      context.refreshKey = some (Request.refreshKey buyerId requestId) ∧
      context.messageId = original.messageId ∧ context.offerId = original.offerId ∧
      context.draftRefs = original.draftRefs
  | .act seller target action requestId reason, .recorded =>
    ∃ row ∈ db.actions, row.id = Request.actKey seller requestId ∧ row.target = target ∧
      row.action = action ∧ row.reason = reason
  | .review seller approvalId requestId comment approved expectedRevision, .decided =>
    ∃ receipt ∈ db.receipts, receipt.id = .sellerApproval (Request.reviewKey seller requestId) ∧
      receipt.commandHash =
        Request.reviewHash seller approvalId comment approved expectedRevision
  | _, _ => False

section

variable {db after : Db} {now : Time}

/-- A request that is found was enqueued; one that is not is appended. -/
theorem enqueue_cases {buyerId requestId : String} {payload : Payload} {config : Option Config}
    {result : Db × Nat} (done : enqueue db buyerId requestId payload config now = .ok result) :
    db.session.buyerId = buyerId ∧
      ((result.1 = db ∧ ∃ run ∈ db.inputs, run.id = result.2 ∧ run.requestId = requestId ∧
          run.inputHash = digest payload.json) ∨
        ∃ frozen seen, (∀ run ∈ db.inputs, run.requestId ≠ requestId) ∧
          newInput db requestId payload frozen seen now = .ok result.1 ∧ result.2 = db.nextId) := by
  unfold enqueue ownedSession at done
  simp only [bind_eq_ok, require_eq_ok] at done
  obtain ⟨_, _, _, owned, _, _, _, _, rest⟩ := done
  refine ⟨owned, ?_⟩
  split at rest
  · next old found =>
    simp only [bind_eq_ok, pure_eq_ok, require_eq_ok] at rest
    obtain ⟨_, same, rfl⟩ := rest
    have named := holds_of_find? found
    exact .inl ⟨rfl, old, List.mem_of_find?_eq_some found, rfl, named, same⟩
  · next absent =>
    simp only [bind_eq_ok, pure_eq_ok] at rest
    obtain ⟨_, _, _, _, seen, _, _, _, stored, appended, rfl⟩ := rest
    refine .inr ⟨_, seen, fun run member same => ?_, appended, rfl⟩
    exact List.find?_eq_none.mp absent run member (decide_eq_true same)

/-- An acknowledgement is found, or it is the first for its request. -/
theorem display_cases {buyerId viewId requestId : String} {contextId : Nat}
    {compared checked displayed : Time} {result : Db × Nat}
    (done : display db buyerId contextId viewId requestId compared checked displayed =
      .ok result) :
    (result.1 = db ∧ ∃ ack ∈ db.acks, ack.id = result.2 ∧ ack.buyerId = buyerId ∧
        ack.clientViewId = viewId ∧ ack.requestId = requestId ∧ ack.contextId = contextId) ∨
      (∀ ack ∈ db.acks, ¬ (ack.buyerId = buyerId ∧ ack.clientViewId = viewId ∧
          ack.requestId = requestId)) ∧
        result.1 =
          { db with
            acks := db.acks.insertIgnore
              { id := db.nextId, contextId, buyerId, clientViewId := viewId, requestId
                displayedAt := displayed }
            nextId := db.nextId + 1 } ∧
        db.acks.get db.nextId = none ∧ result.2 = db.nextId := by
  unfold display Db.ackOf at done
  simp only [bind_eq_ok] at done
  obtain ⟨_, _, _, _, rest⟩ := done
  split at rest
  · next old found =>
    simp only [bind_eq_ok, pure_eq_ok, require_eq_ok] at rest
    obtain ⟨_, same, rfl⟩ := rest
    obtain ⟨buyer, view, request⟩ := holds_of_find? found
    exact .inl ⟨rfl, old, List.mem_of_find?_eq_some found, rfl, buyer, view, request, same⟩
  · next absent =>
    simp only [bind_eq_ok, pure_eq_ok] at rest
    obtain ⟨context, _, _, _, _, _, acks, inserted, rfl⟩ := rest
    refine .inr ⟨fun ack member same => ?_, ?_, Table.free_of_insert inserted, rfl⟩
    · exact List.find?_eq_none.mp absent ack member (decide_eq_true same)
    · rw [Table.eq_insertIgnore inserted]

omit [Platform] in
/-- The transactions on runs, tasks and instances. -/
def Transaction.OfQueue : Transaction → Prop
  | .enqueue _ _ _ _ _ | .claim _ _ | .heartbeat _ _ _ _ _ | .release _ _ _ _ _ _
  | .finalize _ _ _ _ _ _ | .registerInstance _ _ | .attachOwner _ _ _ _
  | .cleanupInstance _ _ _ | .releaseInstance _ | .supervisorKill _ _ _ _ | .act _ _ _ _ _ _ => True
  | _ => False

omit [Platform] in
/-- What runs, tasks and instances are kept in, and the actions on them. -/
structure Work where
  inputs : Table NegotiationInput.id
  tasks : Table StoredTask.id
  instances : Table GraphExecutionInstance.id
  actions : Table GraphRecoveryAction.id

omit [Platform] in
def Db.work (db : Db) : Work where
  inputs := db.inputs
  tasks := db.tasks
  instances := db.instances
  actions := db.actions

omit [Platform] in
theorem BusinessWrites.work (writes : BusinessWrites db after) : after.work = db.work := by
  rw [writes.frame]
  rfl

omit [Platform] in
theorem PublicWrites.work (writes : PublicWrites db after) : after.work = db.work := by
  rw [writes.frame]
  rfl

omit [Platform] in
theorem SellerWrites.work (writes : SellerWrites db after) : after.work = db.work := by
  rw [show _ = _ from writes]
  rfl

omit [Platform] in
theorem ExecutionWrites.work (writes : ExecutionWrites db after) : after.work = db.work := by
  rw [show _ = _ from writes]
  rfl

omit [Platform] in
theorem DraftWrites.work (writes : DraftWrites db after) : after.work = db.work := by
  rw [show _ = _ from writes]
  rfl

/-- What is not a transaction of the queue leaves its rows alone. -/
theorem perform_work {transaction : Transaction} (other : ¬ transaction.OfQueue)
    (done : db.perform transaction = .ok after) : after.work = db.work := by
  cases transaction <;> simp only [Db.perform, map_eq_ok, Except.ok.injEq] at done
  case planTurn runId owner plan now =>
    unfold planTurn at done
    simp only [bind_eq_ok] at done
    obtain ⟨_, _, rest⟩ := done
    split at rest
    · obtain rfl := (pure_eq_ok _ _).mp rest
      rfl
    · simp only [bind_eq_ok, pure_eq_ok] at rest
      obtain ⟨turns, _, rfl⟩ := rest
      exact (storeDrafts_writes runId now plan.drafts db).work
  case execute =>
    obtain ⟨_, done, rfl⟩ := done
    rcases execute_writes done with same | ⟨_, _, _, _, writes⟩
    · rw [same]
    · rw [writes.frame]
      exact writes.business.work
  case abortOrQuery =>
    obtain ⟨_, done, rfl⟩ := done
    rcases abortOrQuery_writes done with same | ⟨_, writes⟩
    · rw [same]
    · rw [writes.frame]
      exact writes.drafts.work
  case reserveCall => obtain ⟨_, done, rfl⟩ := done; exact (reserveCall_writes done).1.work
  case acceptCall => exact (acceptCall_writes done).1.work
  case settleCall => exact (settleCall_writes done).1.work
  case publishOwned => obtain ⟨_, done, rfl⟩ := done; exact (publishOwned_writes done).work
  case claimNotification =>
    obtain ⟨_, done, rfl⟩ := done
    exact (claimNotification_writes done).work
  case retryNotification => exact (retryNotification_writes done).work
  case publishNotified => obtain ⟨_, done, rfl⟩ := done; exact (publishNotified_writes done).work
  case display =>
    obtain ⟨_, done, rfl⟩ := done
    rcases display_cases done with ⟨same, _⟩ | ⟨_, frame, _⟩
    · rw [same]
    · rw [frame]
      rfl
  case refreshContext => obtain ⟨_, done, rfl⟩ := done; exact (refreshContext_writes done).work
  case updateOwnedProduct => exact (updateOwnedProduct_writes done).work
  case updateOwnedPolicy => exact (updateOwnedPolicy_writes done).work
  case setFact => exact (setFact_writes done).work
  case setRule => exact (setRule_writes done).work
  case recheckItem => exact (recheckItem_writes done).work
  case review => obtain ⟨_, done, rfl⟩ := done; exact (review_writes done).work
  case reconcileOffer => exact (reconcileOffer_writes done).work
  case archive =>
    unfold archive at done
    simp only [bind_eq_ok, pure_eq_ok] at done
    obtain ⟨_, _, _, _, rfl⟩ := done
    rfl
  case reconcile => exact (reconcile_writes done).work
  case applyApproval => obtain ⟨_, done, rfl⟩ := done; exact (applyApproval_writes done).work
  case acknowledge =>
    unfold acknowledge at done
    simp only [bind_eq_ok, pure_eq_ok] at done
    obtain ⟨_, _, rfl⟩ := done
    rw [acknowledgeEvents_writes]
    rfl
  case claimExecution =>
    obtain rfl := done
    exact (claimExecution_writes _ _).1.work
  case releaseExecution => exact (releaseExecution_writes done).1.work
  all_goals exact absurd trivial other

omit [Platform] in
theorem revoke_actions {run : NegotiationInput} {task : ModelExecutionTask} {settled retried : Time}
    (done : revoke db run task settled retried = .ok after) : after.actions = db.actions := by
  unfold revoke at done
  simp only [bind_eq_ok, pure_eq_ok, saveTask_eq_ok] at done
  obtain ⟨_, ⟨_, rfl⟩, rfl⟩ := done
  rfl

omit [Platform] in
theorem claim_actions {runId : Nat} {result : Db × Option Owner}
    (done : claim db runId now = .ok result) : result.1.actions = db.actions := by
  unfold claim giveUp grant at done
  simp only [bind_eq_ok] at done
  obtain ⟨run, _, stored, _, rest⟩ := done
  split at rest
  · split at rest
    · simp only [bind_eq_ok, pure_eq_ok, saveTask_eq_ok] at rest
      obtain ⟨_, ⟨_, rfl⟩, rfl⟩ := rest
      rfl
    · split at rest <;> simp only [bind_eq_ok, pure_eq_ok, saveTask_eq_ok] at rest <;>
        obtain ⟨_, ⟨_, rfl⟩, rfl⟩ := rest <;> rfl
  · obtain rfl := (pure_eq_ok _ _).mp rest
    rfl

/-- Only a recovery action is recorded as one. -/
theorem perform_actions {transaction : Transaction}
    (other : ∀ seller target action requestId reason now,
      transaction ≠ .act seller target action requestId reason now)
    (done : db.perform transaction = .ok after) : after.actions = db.actions := by
  by_cases queue : transaction.OfQueue
  · cases transaction <;> first
      | exact queue.elim
      | simp only [Db.perform, map_eq_ok] at done
    case enqueue =>
      obtain ⟨result, done, rfl⟩ := done
      obtain ⟨_, ⟨same, _⟩ | ⟨_, _, _, appended, _⟩⟩ := enqueue_cases done
      · rw [same]
      · unfold newInput at appended
        simp only [bind_eq_ok, pure_eq_ok] at appended
        obtain ⟨_, _, _, _, _, _, same⟩ := appended
        rw [← same]
    case claim => obtain ⟨result, done, rfl⟩ := done; exact claim_actions done
    case heartbeat =>
      unfold heartbeat at done
      simp only [bind_eq_ok, pure_eq_ok, saveTask_eq_ok] at done
      obtain ⟨_, _, _, _, _, ⟨_, rfl⟩, rfl⟩ := done
      rfl
    case release =>
      unfold release at done
      simp only [bind_eq_ok, pure_eq_ok, saveTask_eq_ok] at done
      obtain ⟨_, _, _, ⟨_, rfl⟩, rfl⟩ := done
      rfl
    case finalize =>
      unfold finalize at done
      simp only [bind_eq_ok, pure_eq_ok, saveTask_eq_ok] at done
      obtain ⟨_, _, _, _, _, _, _, _, _, _, _, ⟨_, rfl⟩, rfl⟩ := done
      rfl
    case registerInstance =>
      obtain ⟨result, done, rfl⟩ := done
      unfold registerInstance at done
      simp only [bind_eq_ok, pure_eq_ok] at done
      obtain ⟨_, _, rfl⟩ := done
      rfl
    case attachOwner =>
      unfold attachOwner at done
      simp only [bind_eq_ok, pure_eq_ok] at done
      obtain ⟨_, _, _, _, _, _, rfl⟩ := done
      rfl
    case releaseInstance =>
      unfold releaseInstance at done
      simp only [bind_eq_ok, pure_eq_ok] at done
      obtain ⟨_, _, rfl⟩ := done
      rfl
    case cleanupInstance =>
      obtain ⟨result, done, rfl⟩ := done
      unfold cleanupInstance revokeOwner at done
      split at done
      · obtain rfl := (pure_eq_ok _ _).mp done
        rfl
      · simp only [bind_eq_ok] at done
        obtain ⟨_, _, _, _, rest⟩ := done
        split at rest
        · obtain rfl := (pure_eq_ok _ _).mp rest
          rfl
        · simp only [bind_eq_ok, pure_eq_ok] at rest
          obtain ⟨revoked, taken, rfl⟩ := rest
          split at taken
          · have kept := revoke_actions taken
            exact kept
          · obtain rfl := (pure_eq_ok _ _).mp taken
            rfl
    case supervisorKill =>
      unfold supervisorKill at done
      simp only [bind_eq_ok] at done
      obtain ⟨_, _, _, _, rest⟩ := done
      split at rest
      · obtain rfl := (pure_eq_ok _ _).mp rest
        rfl
      · split at rest
        · exact revoke_actions rest
        · obtain rfl := (pure_eq_ok _ _).mp rest
          rfl
    case act => exact absurd rfl (other _ _ _ _ _ _)
  · exact congrArg Work.actions (perform_work queue done)

/-! ### Once for a request -/

theorem act_cases {seller requestId reason : String} {target : RecoveryTarget}
    {action : RecoveryAct}
    (done : act db seller target action requestId reason now = .ok after) :
    (∀ row ∈ db.actions, row ∈ after.actions) ∧
      (after = db ∨ db.actions.get (Request.actKey seller requestId) = none) ∧
      ∃ row ∈ after.actions, row.id = Request.actKey seller requestId ∧ row.target = target ∧
        row.action = action ∧ row.reason = reason := by
  unfold act at done
  simp only [bind_eq_ok] at done
  obtain ⟨_, _, _, _, _, _, rest⟩ := done
  split at rest
  · next old found =>
    simp only [bind_eq_ok, pure_eq_ok, require_eq_ok] at rest
    obtain ⟨_, same, rfl⟩ := rest
    exact ⟨fun _ => id, .inl rfl, old, Table.mem_of_get found, Table.key_of_get found, same⟩
  · next absent =>
    simp only [bind_eq_ok, pure_eq_ok] at rest
    obtain ⟨recovered, recovers, actions, inserted, rfl⟩ := rest
    have kept : recovered.actions = db.actions := by
      cases target with
      | run =>
        unfold recoverTarget recoverRun at recovers
        simp only [bind_eq_ok, pure_eq_ok, saveTask_eq_ok] at recovers
        obtain ⟨_, _, _, _, _, _, _, _, _, _, _, ⟨_, rfl⟩, rfl⟩ := recovers
        rfl
      | notification =>
        unfold recoverTarget recoverNotification at recovers
        simp only [bind_eq_ok, pure_eq_ok] at recovers
        obtain ⟨_, _, _, _, rfl⟩ := recovers
        rfl
    refine ⟨fun row member => (Table.mem_insert inserted row).mpr (.inr (kept ▸ member)),
      .inr absent, _, (Table.mem_insert inserted _).mpr (.inl rfl), rfl, rfl, rfl, rfl⟩

theorem perform_actions_kept {transaction : Transaction}
    (done : db.perform transaction = .ok after) : ∀ row ∈ db.actions, row ∈ after.actions := by
  by_cases acts : ∃ seller target action requestId reason now,
      transaction = .act seller target action requestId reason now
  · obtain ⟨seller, target, action, requestId, reason, now, rfl⟩ := acts
    exact (act_cases done).1
  · have same := perform_actions (fun seller target action requestId reason now made =>
      acts ⟨seller, target, action, requestId, reason, now, made⟩) done
    rw [same]
    exact fun _ => id

/-- The buyer of a session is fixed. -/
theorem Effect.buyerId {transaction : Transaction} (effect : Effect db transaction after) :
    after.session.buyerId = db.session.buyerId := by
  cases effect with
  | business _ writes => rw [writes.frame]
  | repeated same => rw [same]
  | command _ writes => rw [writes.frame, writes.business.frame]
  | answered _ writes => rw [writes.frame, writes.drafts]
  | planned _ _ _ writes frame => rw [frame, writes]
  | published _ writes => rw [writes.frame]
  | displayed _ _ _ _ _ _ frame | archived frame => rw [frame]
  | edited _ writes | executed writes _ => rw [writes]
  | acknowledged _ frame => rw [frame, acknowledgeEvents_writes]
  | queued effect =>
    cases effect with
    | idle frame | turned _ _ _ _ frame => rw [frame]
    | enqueued _ _ _ _ appended =>
      unfold newInput at appended
      simp only [bind_eq_ok, pure_eq_ok] at appended
      obtain ⟨_, _, _, _, _, _, rfl⟩ := appended
      rfl

/-- What is recorded stays recorded. -/
theorem Recorded.kept {transaction : Transaction} {request : Request} {reply : Reply}
    (ordered : Ordered db.queue) (done : db.perform transaction = .ok after)
    (recorded : Recorded db request reply) : Recorded after request reply := by
  have grows := (perform_effect done).grows
  cases request with
  | enqueue =>
    cases reply with
    | input =>
      obtain ⟨owned, run, member, key, named, hash⟩ := recorded
      obtain ⟨later, listed, sent⟩ := run_stays ordered done member
      have id : later.id = run.id := (NegotiationInput.of_sent sent).1
      have request : later.requestId = run.requestId := congrArg (·.requestId) sent
      have input : later.inputHash = run.inputHash := congrArg (·.inputHash) sent
      exact ⟨(perform_effect done).buyerId.trans owned, later, listed, id.trans key,
        request.trans named, input.trans hash⟩
    | _ => exact recorded.elim
  | display =>
    cases reply with
    | ack =>
      obtain ⟨ack, member, shown⟩ := recorded
      exact ⟨ack, grows.acks ack member, shown⟩
    | _ => exact recorded.elim
  | refresh =>
    cases reply with
    | context =>
      obtain ⟨original, member, context, listed, shown⟩ := recorded
      exact ⟨original, grows.contexts original member, context, grows.contexts context listed,
        shown⟩
    | _ => exact recorded.elim
  | act =>
    cases reply with
    | recorded =>
      obtain ⟨row, member, shown⟩ := recorded
      exact ⟨row, perform_actions_kept done row member, shown⟩
    | _ => exact recorded.elim
  | review =>
    cases reply with
    | decided =>
      obtain ⟨receipt, member, shown⟩ := recorded
      exact ⟨receipt, grows.receipts receipt member, shown⟩
    | _ => exact recorded.elim

/-! ### The request comes back -/

/-- The requests ask for the same, as far as the entry point compares them. -/
def Request.Agrees (db : Db) : Request → Request → Prop
  | .enqueue _ _ one, .enqueue _ _ two => digest one.json = digest two.json
  | .display _ one _ _, .display _ two _ _ => one = two
  | .refresh _ one _, .refresh _ two _ =>
    ∃ first ∈ db.contexts, ∃ second ∈ db.contexts, first.id = one ∧ second.id = two ∧
      first.messageId = second.messageId ∧ first.offerId = second.offerId ∧
      first.draftRefs = second.draftRefs
  | .act _ target action _ reason, .act _ other another _ why =>
    target = other ∧ action = another ∧ reason = why
  | .review seller approvalId _ comment approved revision,
      .review vendor otherId _ remark accepted expected =>
    reviewHash seller approvalId comment approved revision =
      reviewHash vendor otherId remark accepted expected
  | _, _ => False

/-- What an entry point checks of a request that comes back: a session that is archived takes no
inputs and no recoveries, and what a refreshed context shows has to stand. -/
def Request.Open (db : Db) (moment : Moment) : Request → Prop
  | .enqueue _ _ _ | .act _ _ _ _ _ => db.session.archivedAt = none
  | .refresh _ contextId _ => ∃ original expiry, db.contexts.get contextId = some original ∧
      checkObject db original moment.compared = .ok expiry
  | _ => True

/-- A target of a recovery stays. -/
theorem TargetExists.kept {transaction : Transaction} {target : RecoveryTarget}
    (ordered : Ordered db.queue) (done : db.perform transaction = .ok after)
    (exists_ : TargetExists db target) : TargetExists after target := by
  cases target with
  | run runId =>
    obtain ⟨run, found⟩ := Option.ne_none_iff_exists'.mp exists_
    obtain ⟨later, listed, sent⟩ := run_stays ordered done (Table.mem_of_get found)
    have key : later.id = runId :=
      (NegotiationInput.of_sent sent).1.trans (Table.key_of_get found)
    have present : after.inputs.get runId = some later := key ▸ Table.get_of_mem listed
    exact fun absent => Option.some_ne_none later (present.symm.trans absent)
  | notification source =>
    obtain ⟨item, found⟩ := Option.ne_none_iff_exists'.mp exists_
    obtain ⟨new, listed, issued⟩ :=
      (perform_effect done).grows.notices item (Table.mem_of_get found)
    have id : new.issued.id = item.issued.id := congrArg NotificationDelivery.id issued
    have held : item.id = source := Table.key_of_get found
    have key : new.id = source := Eq.trans id held
    have present : after.deliveries.get source = some new := key ▸ Table.get_of_mem listed
    exact fun absent => Option.some_ne_none new (present.symm.trans absent)

end

end

def firstMoment : Moment :=
  { compared := seconds 1, checked := seconds 1, displayed := seconds 1 }

end Negotiation
