/-
This file says what a transaction on the queue can do to a run. Whoever makes
it, it moves one run and its task by one of eight turns, each with the guards
it has passed; an enqueued input is new, and every other transaction of the
queue leaves runs and tasks alone. The theorems on leases, cursors and closing
windows are case splits on these turns and never unfold a transaction.
-/

import SecondhandAgent.Records

namespace Negotiation

open Store

/-! ### Notices -/

/-- A delivery as it was issued, without the state of its publication. -/
def NotificationDelivery.issued (item : NotificationDelivery) : NotificationDelivery :=
  { item with
    status := .pending, publicMessageId := none, leaseToken := none, leaseUntil := none
    attempts := 0, nextRetryAt := none }

/-- The same notices were issued. -/
def SameNotices (before after : Table NotificationDelivery.id) : Prop :=
  ∀ source, (after.get source).map (·.issued) = (before.get source).map (·.issued)

theorem SameNotices.refl (table : Table NotificationDelivery.id) : SameNotices table table :=
  fun _ => rfl

theorem SameNotices.trans {before middle after : Table NotificationDelivery.id}
    (first : SameNotices before middle) (second : SameNotices middle after) :
    SameNotices before after :=
  fun source => (second source).trans (first source)

/-- A delivery that is not published, or that is leased, is worked on and not published. -/
inductive Reworked (before after : Table NotificationDelivery.id) : Prop
  | same (same : after = before)
  | changed {item changed : NotificationDelivery} (listed : before.get item.id = some item)
      (frame : after = before.put changed)
      (open_ : item.status ≠ .published ∨ item.leaseToken ≠ none) (key : changed.id = item.id)
      (still : changed.status ≠ .published)
      (named : changed.publicMessageId = item.publicMessageId)

/-- A delivery that is written back as it was issued. -/
theorem sameNotices_put {table : Table NotificationDelivery.id} {item changed : NotificationDelivery}
    (found : table.get item.id = some item) (same : changed.issued = item.issued) :
    SameNotices table (table.put changed) := by
  intro source
  have keyed : changed.issued.id = item.issued.id := congrArg NotificationDelivery.id same
  have present : table.get changed.id = some item := keyed ▸ found
  rw [Table.get_put present]
  by_cases here : source = changed.id
  · rw [if_pos here, here, present]
    exact congrArg some same
  · rw [if_neg here]

/-! ### The turns of a run -/

/-- What a transaction does to a run, its task and the cursor of the session. -/
inductive Turn (db : Db) (run : NegotiationInput) (task : ModelExecutionTask) :
    Transaction → NegotiationInput → ModelExecutionTask → Nat → Prop
  /-- A claim finds the time or the attempts used up. -/
  | gaveUp {now : Time} (claimable : Claimable db run task now)
      (overdue : (claimDeadline db run task now).2 ≤ now ∨ task.maxAttempts ≤ task.attemptCount) :
      Turn db run task (.claim run.id now)
        { (claimDeadline db run task now).1 with recoveryRequired := true }
        ({ task with nextRetryAt := none }).failed db.session.lastResolvedInputSeq
  | granted {now : Time} (claimable : Claimable db run task now)
      (ahead : now < (claimDeadline db run task now).2)
      (attempts : task.attemptCount < task.maxAttempts) :
      Turn db run task (.claim run.id now)
        { (claimDeadline db run task now).1 with
          activeSince := some now, activeUntil := some (claimDeadline db run task now).2 }
        (task.granted db.nextId (claimDeadline db run task now).1.id
          (claimDeadline db run task now).2)
        db.session.lastResolvedInputSeq
  | released {owner : Owner} {recoveryRequired : Bool} {checked settled retried : Time}
      (owned : OwnedBy task owner checked) :
      Turn db run task (.release run.id owner recoveryRequired checked settled retried)
        { settle run settled with recoveryRequired } (task.retrying (retried + seconds 1))
        db.session.lastResolvedInputSeq
  | extended {owner : Owner} {checked extended compared : Time}
      (owned : OwnedBy task owner checked) (ahead : compared < (leaseDeadline db run extended).2) :
      Turn db run task (.heartbeat run.id owner checked extended compared)
        { (leaseDeadline db run extended).1 with
          activeUntil := some (leaseDeadline db run extended).2 }
        (task.extended (leaseDeadline db run extended).2) db.session.lastResolvedInputSeq
  | finalized {owner : Owner} {values : TurnValues} {checked settled : Time}
      {delivery : NotificationDelivery} (owned : OwnedBy task owner checked)
      (belongs : BelongsTo values run) (reply : db.reply run.id = some delivery)
      (published : delivery.status = .published)
      (message : delivery.publicMessageId = values.publishedMessageId)
      (head : db.session.lastResolvedInputSeq + 1 = run.inputSeq) :
      Turn db run task (.finalize run.id owner values false checked settled) (settle run settled)
        task.succeeded run.inputSeq
  | cleaned {record : GraphExecutionInstance} {force : Bool} {now : Time}
      (found : db.instances.get record.id = some record) (owner : SameOwner record task)
      (running : task.status = .running) (idle : force = false → ¬ AtWork run task record now) :
      Turn db run task (.cleanupInstance record.id force now) (settle run now) (task.revoked now)
        db.session.lastResolvedInputSeq
  | killed {record : GraphExecutionInstance} {settled retried : Time}
      (found : db.instances.get record.id = some record) (running : task.status = .running)
      (token : record.leaseToken = task.leaseToken)
      (epoch : record.ownershipEpoch = some task.ownershipEpoch) :
      Turn db run task (.supervisorKill run.id record.id settled retried) (settle run settled)
        (task.revoked retried) db.session.lastResolvedInputSeq
  | recovered {seller requestId reason : String} {action : RecoveryAct} {now : Time}
      (head : run.inputSeq = db.session.lastResolvedInputSeq + 1)
      (lapsed : ¬ Ahead task.leaseExpiresAt now)
      (open_ : task.status ≠ .succeeded ∧ task.status ≠ .cancelled) :
      Turn db run task (.act seller (.run run.id) action requestId reason now)
        { run with recoveryRequired := false } (task.recovered action)
        db.session.lastResolvedInputSeq

/-- An input as it was sent, without the accounts of its execution. -/
def NegotiationInput.sent (run : NegotiationInput) : NegotiationInput :=
  { run with
    recoveryRequired := false, activeMs := 0, activeSince := none, activeUntil := none
    closingDeadline := none }

/-- Two inputs that were sent as one have the same key, task, number, payload and budget. -/
theorem NegotiationInput.of_sent {one two : NegotiationInput} (same : one.sent = two.sent) :
    one.id = two.id ∧ one.taskId = two.taskId ∧ one.inputSeq = two.inputSeq ∧
      one.payload = two.payload ∧ one.config = two.config :=
  ⟨(congrArg (·.id) same :), (congrArg (·.taskId) same :), (congrArg (·.inputSeq) same :),
    (congrArg (·.payload) same :), (congrArg (·.config) same :)⟩

theorem settle_sent (run : NegotiationInput) (now : Time) : (settle run now).sent = run.sent := rfl

theorem leaseDeadline_sent (db : Db) (run : NegotiationInput) (now : Time) :
    (leaseDeadline db run now).1.sent = run.sent := by
  unfold leaseDeadline
  split
  · rfl
  · dsimp only
    split <;> rfl

theorem claimDeadline_sent (db : Db) (run : NegotiationInput) (task : ModelExecutionTask)
    (now : Time) : (claimDeadline db run task now).1.sent = run.sent :=
  (leaseDeadline_sent db (settle run now) now).trans (settle_sent run now)

/-- A turn changes nothing of what was sent. -/
theorem Turn.sent {db : Db} {run changed : NegotiationInput} {task moved : ModelExecutionTask}
    {transaction : Transaction} {cursor : Nat}
    (turn : Turn db run task transaction changed moved cursor) : changed.sent = run.sent := by
  cases turn with
  | gaveUp | granted => exact claimDeadline_sent db run task _
  | extended => exact leaseDeadline_sent db run _
  | released | finalized | cleaned | killed | recovered => rfl

section

variable [Platform]

/-- What a transaction on the queue does. -/
inductive QueueEffect (db : Db) (transaction : Transaction) (after : Db) : Prop
  /-- Runs and tasks are left alone. -/
  | idle (frame : after =
        { db with
          deliveries := after.deliveries, instances := after.instances
          actions := after.actions, nextId := after.nextId })
      (notices : SameNotices db.deliveries after.deliveries)
      (published : ∀ item ∈ after.deliveries, item.status = .published → item ∈ db.deliveries)
      (work : Reworked db.deliveries after.deliveries)
  /-- An input is appended. -/
  | enqueued {buyerId requestId : String} {payload : Payload} {config : Option Config}
      {frozen : Config} {seen : Nat} {now : Time}
      (made : transaction = .enqueue buyerId requestId payload config now)
      (room : db.session.nextInputSeq - db.session.lastResolvedInputSeq ≤ queueLimit)
      (kind : payload.isChat = db.session.graphVersion.isSemantic)
      (valid : ValidConfig frozen db.session.graphVersion)
      (appended : newInput db requestId payload frozen seen now = .ok after)
  /-- A run makes a turn. -/
  | turned {run changed : NegotiationInput} {stored : StoredTask} {task : ModelExecutionTask}
      {cursor : Nat} (found : db.inputs.get run.id = some run)
      (held : db.tasks.get run.taskId = some stored) (lawful : task.Lawful)
      (turn : Turn db run stored.val transaction changed task cursor)
      (frame : after =
        { db with
          session := { db.session with lastResolvedInputSeq := cursor }
          inputs := db.inputs.put changed
          tasks := db.tasks.put ⟨task, lawful⟩
          instances := after.instances
          actions := after.actions
          nextId := after.nextId })

end

/-! ### The transactions on the queue -/

section

variable {db after : Db} {now : Time}

theorem saveTask_eq_ok {task : ModelExecutionTask} :
    db.saveTask task = .ok after ↔
      ∃ lawful : task.Lawful, after = { db with tasks := db.tasks.put ⟨task, lawful⟩ } := by
  unfold Db.saveTask
  by_cases lawful : task.Lawful <;> simp [lawful, eq_comm]

theorem lockOwner_eq_ok {runId : Nat} {owner : Owner} {run : NegotiationInput}
    {task : ModelExecutionTask} :
    lockOwner db runId owner now = .ok (run, task) ↔
      db.inputs.get runId = some run ∧
        (∃ lawful : task.Lawful, db.tasks.get run.taskId = some ⟨task, lawful⟩) ∧
        OwnedBy task owner now := by
  unfold lockOwner
  simp only [bind_eq_ok, expect_eq_ok, require_eq_ok, pure_eq_ok, Prod.mk.injEq]
  constructor
  · rintro ⟨_, found, stored, held, _, owned, rfl, rfl⟩
    exact ⟨found, ⟨stored.property, held⟩, owned⟩
  · rintro ⟨found, ⟨lawful, held⟩, owned⟩
    exact ⟨run, found, ⟨task, lawful⟩, held, (), owned, rfl, rfl⟩

end

section

variable [Platform] {db after : Db} {now : Time}

/-- Nothing of the queue is written. -/
theorem QueueEffect.none {transaction : Transaction} : QueueEffect db transaction db :=
  .idle rfl (.refl _) (fun _ member _ => member) (.same rfl)

/-- A task without a retry time is failed with or without clearing that time. -/
theorem failed_of_lawful {task : ModelExecutionTask} (lawful : task.failed.Lawful) :
    task.failed = ({ task with nextRetryAt := Option.none }).failed := by
  have cleared : task.nextRetryAt = Option.none := by
    rcases lawful.2 with ⟨waiting, _⟩ | ⟨_, cleared⟩
    · cases waiting
    · exact cleared
  show ({ task.withoutLease with status := .failed } : ModelExecutionTask) = _
  rw [← cleared]
  rfl

theorem giveUp_effect {run : NegotiationInput} {stored : StoredTask} {result : Db × Option Owner}
    (found : db.inputs.get run.id = some run) (held : db.tasks.get run.taskId = some stored)
    (claimable : Claimable db run stored.val now)
    (overdue : (claimDeadline db run stored.val now).2 ≤ now ∨
      stored.val.maxAttempts ≤ stored.val.attemptCount)
    (done : giveUp db (claimDeadline db run stored.val now).1
      { stored.val with nextRetryAt := Option.none } = .ok result) :
    QueueEffect db (.claim run.id now) result.1 := by
  unfold giveUp at done
  simp only [bind_eq_ok, pure_eq_ok, saveTask_eq_ok] at done
  obtain ⟨_, ⟨lawful, rfl⟩, rfl⟩ := done
  exact .turned found held lawful (.gaveUp claimable overdue) rfl

theorem claim_effect {runId : Nat} {result : Db × Option Owner}
    (done : claim db runId now = .ok result) : QueueEffect db (.claim runId now) result.1 := by
  unfold claim at done
  simp only [bind_eq_ok, expect_eq_ok] at done
  obtain ⟨run, found, stored, held, rest⟩ := done
  obtain rfl : run.id = runId := Table.key_of_get found
  split at rest
  · next claimable =>
    split at rest
    · next overdue =>
      have lawful : stored.val.failed.Lawful := by
        unfold giveUp at rest
        simp only [bind_eq_ok, saveTask_eq_ok] at rest
        obtain ⟨_, ⟨lawful, _⟩, _⟩ := rest
        exact lawful
      refine giveUp_effect found held claimable (.inl overdue) ?_
      unfold giveUp at rest ⊢
      rw [← failed_of_lawful lawful]
      exact rest
    · next ahead =>
      split at rest
      · next spent => exact giveUp_effect found held claimable (.inr spent) rest
      · next attempts =>
        unfold grant at rest
        simp only [bind_eq_ok, pure_eq_ok, saveTask_eq_ok] at rest
        obtain ⟨_, ⟨lawful, rfl⟩, rfl⟩ := rest
        exact .turned found held lawful
          (.granted claimable (Nat.lt_of_not_le ahead) (Nat.lt_of_not_le attempts)) rfl
  · obtain rfl := (pure_eq_ok _ _).mp rest
    exact .none

theorem release_effect {runId : Nat} {owner : Owner} {recoveryRequired : Bool}
    {checked settled retried : Time}
    (done : release db runId owner recoveryRequired checked settled retried = .ok after) :
    QueueEffect db (.release runId owner recoveryRequired checked settled retried) after := by
  unfold release at done
  simp only [bind_eq_ok, pure_eq_ok, saveTask_eq_ok, Prod.exists, lockOwner_eq_ok] at done
  obtain ⟨run, task, ⟨found, ⟨_, held⟩, owned⟩, _, ⟨lawful, rfl⟩, rfl⟩ := done
  obtain rfl : run.id = runId := Table.key_of_get found
  exact .turned found held lawful (.released owned) rfl

theorem heartbeat_effect {runId : Nat} {owner : Owner} {checked extended compared : Time}
    (done : heartbeat db runId owner checked extended compared = .ok after) :
    QueueEffect db (.heartbeat runId owner checked extended compared) after := by
  unfold heartbeat at done
  simp only [bind_eq_ok, pure_eq_ok, saveTask_eq_ok, Prod.exists, lockOwner_eq_ok,
    require_eq_ok] at done
  obtain ⟨run, task, ⟨found, ⟨_, held⟩, owned⟩, _, ahead, _, ⟨lawful, rfl⟩, rfl⟩ := done
  obtain rfl : run.id = runId := Table.key_of_get found
  exact .turned found held lawful (.extended owned ahead) rfl

theorem finalize_effect {runId : Nat} {owner : Owner} {values : TurnValues} {pending : Bool}
    {checked settled : Time}
    (done : finalize db runId owner values pending checked settled = .ok after) :
    QueueEffect db (.finalize runId owner values pending checked settled) after := by
  unfold finalize at done
  simp only [bind_eq_ok, pure_eq_ok, saveTask_eq_ok, Prod.exists, lockOwner_eq_ok,
    require_eq_ok, expect_eq_ok] at done
  obtain ⟨run, task, ⟨found, ⟨_, held⟩, owned⟩, _, ⟨rfl, belongs⟩, delivery, reply, _,
    ⟨published, message⟩, _, head, _, ⟨lawful, rfl⟩, rfl⟩ := done
  obtain rfl : run.id = runId := Table.key_of_get found
  exact .turned found held lawful (.finalized owned belongs reply published message head) rfl

theorem cleanupInstance_effect {instanceId : Nat} {force : Bool} {result : Db × Bool}
    (done : cleanupInstance db instanceId force now = .ok result) :
    QueueEffect db (.cleanupInstance instanceId force now) result.1 := by
  unfold cleanupInstance at done
  split at done
  · obtain rfl := (pure_eq_ok _ _).mp done
    exact .none
  · next record recorded =>
    obtain rfl : record.id = instanceId := Table.key_of_get recorded
    simp only [bind_eq_ok, expect_eq_ok] at done
    obtain ⟨run, found, stored, held, rest⟩ := done
    split at rest
    · obtain rfl := (pure_eq_ok _ _).mp rest
      exact .none
    · next proceeds =>
      unfold revokeOwner revoke at rest
      simp only [bind_eq_ok, pure_eq_ok] at rest
      obtain ⟨revoked, ended, rfl⟩ := rest
      split at ended
      · next held_by =>
        simp only [bind_eq_ok, pure_eq_ok, saveTask_eq_ok] at ended
        obtain ⟨_, ⟨lawful, rfl⟩, rfl⟩ := ended
        have keyed : run.id = record.inputId := Table.key_of_get found
        refine .turned (keyed ▸ found) held lawful
          (.cleaned recorded held_by.1 held_by.2 fun unforced working => ?_) rfl
        exact proceeds (Or.inr ⟨unforced, working⟩)
      · obtain rfl := (pure_eq_ok _ _).mp ended
        exact .idle rfl (.refl _) (fun _ member _ => member) (.same rfl)

theorem supervisorKill_effect {runId instanceId : Nat} {settled retried : Time}
    (done : supervisorKill db runId instanceId settled retried = .ok after) :
    QueueEffect db (.supervisorKill runId instanceId settled retried) after := by
  unfold supervisorKill at done
  simp only [bind_eq_ok, expect_eq_ok] at done
  obtain ⟨run, found, stored, held, rest⟩ := done
  obtain rfl : run.id = runId := Table.key_of_get found
  split at rest
  · obtain rfl := (pure_eq_ok _ _).mp rest
    exact .none
  · next record recorded =>
    obtain rfl : record.id = instanceId := Table.key_of_get recorded
    split at rest
    · next same =>
      unfold revoke at rest
      simp only [bind_eq_ok, pure_eq_ok, saveTask_eq_ok] at rest
      obtain ⟨_, ⟨lawful, rfl⟩, rfl⟩ := rest
      exact .turned found held lawful (.killed recorded same.1 same.2.1 same.2.2) rfl
    · obtain rfl := (pure_eq_ok _ _).mp rest
      exact .none

theorem recoverNotification_effect {source : SourceId} {action : RecoveryAct}
    {transaction : Transaction} (actions : Table GraphRecoveryAction.id)
    (done : recoverNotification db source action = .ok after) :
    QueueEffect db transaction { after with actions } := by
  unfold recoverNotification at done
  simp only [bind_eq_ok, pure_eq_ok, expect_eq_ok, require_eq_ok] at done
  obtain ⟨item, found, _, ⟨_, given⟩, rfl⟩ := done
  obtain rfl : item.id = source := Table.key_of_get found
  refine .idle rfl (sameNotices_put found rfl) (fun other member published => ?_)
    (.changed found rfl (.inl ?_) rfl DeliveryStatus.noConfusion rfl)
  · rcases Table.mem_of_mem_put member with old | rfl
    · exact old
    · cases published
  · rw [given]
    exact DeliveryStatus.noConfusion

theorem act_effect {seller requestId reason : String} {target : RecoveryTarget}
    {action : RecoveryAct}
    (done : act db seller target action requestId reason now = .ok after) :
    QueueEffect db (.act seller target action requestId reason now) after := by
  unfold act at done
  simp only [bind_eq_ok] at done
  obtain ⟨_, _, _, _, _, _, rest⟩ := done
  split at rest
  · simp only [bind_eq_ok, pure_eq_ok] at rest
    obtain ⟨_, _, rfl⟩ := rest
    exact .none
  · simp only [bind_eq_ok, pure_eq_ok] at rest
    obtain ⟨recovered, done, actions, _, rfl⟩ := rest
    cases target with
    | notification source => exact recoverNotification_effect actions done
    | run runId =>
      unfold recoverTarget recoverRun at done
      simp only [bind_eq_ok, pure_eq_ok, expect_eq_ok, require_eq_ok, saveTask_eq_ok] at done
      obtain ⟨run, found, stored, held, _, head, _, lapsed, _, open_, _, ⟨lawful, rfl⟩, rfl⟩ := done
      obtain rfl : run.id = runId := Table.key_of_get found
      exact .turned found held lawful (.recovered head lapsed open_.2) rfl

theorem enqueue_effect {buyerId requestId : String} {payload : Payload} {config : Option Config}
    {result : Db × Nat} (done : enqueue db buyerId requestId payload config now = .ok result) :
    QueueEffect db (.enqueue buyerId requestId payload config now) result.1 := by
  unfold enqueue at done
  simp only [bind_eq_ok, require_eq_ok] at done
  obtain ⟨_, _, _, _, _, _, _, kind, rest⟩ := done
  split at rest
  · simp only [bind_eq_ok, pure_eq_ok] at rest
    obtain ⟨_, _, rfl⟩ := rest
    exact .none
  · simp only [bind_eq_ok, pure_eq_ok, require_eq_ok] at rest
    obtain ⟨_, room, _, _, seen, _, _, valid, stored, appended, rfl⟩ := rest
    exact .enqueued rfl room kind valid appended

theorem registerInstance_effect {runId : Nat} {result : Db × Nat}
    (done : registerInstance db runId now = .ok result) :
    QueueEffect db (.registerInstance runId now) result.1 := by
  unfold registerInstance at done
  simp only [bind_eq_ok, pure_eq_ok] at done
  obtain ⟨instances, _, rfl⟩ := done
  exact .idle rfl (.refl _) (fun _ member _ => member) (.same rfl)

theorem attachOwner_effect {runId instanceId : Nat} {owner : Owner}
    (done : attachOwner db runId instanceId owner now = .ok after) :
    QueueEffect db (.attachOwner runId instanceId owner now) after := by
  unfold attachOwner at done
  simp only [bind_eq_ok, pure_eq_ok] at done
  obtain ⟨_, _, record, _, _, _, rfl⟩ := done
  exact .idle rfl (.refl _) (fun _ member _ => member) (.same rfl)

theorem releaseInstance_effect {instanceId : Nat}
    (done : releaseInstance db instanceId = .ok after) :
    QueueEffect db (.releaseInstance instanceId) after := by
  unfold releaseInstance at done
  simp only [bind_eq_ok, pure_eq_ok] at done
  obtain ⟨record, _, rfl⟩ := done
  exact .idle rfl (.refl _) (fun _ member _ => member) (.same rfl)

end

end Negotiation
