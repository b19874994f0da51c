/-
This file models the operations that take a run away from the process that
executes it: the registration of execution instances and their cleanup, the
supervisor's kill, and the recovery actions of the seller.
-/

import SecondhandAgent.Queue

namespace Negotiation

open Store

/-! ### Execution instances -/

def registerInstance (db : Db) (runId : Nat) (now : Time) : Except Failure (Db × Nat) := do
  let instances ← db.instances.insert
    { id := db.nextId, inputId := runId, registeredAt := now } .unique
  pure ({ db with instances, nextId := db.nextId + 1 }, db.nextId)

/-- Record which owner the instance executes for. -/
def attachOwner (db : Db) (runId instanceId : Nat) (owner : Owner) (now : Time) :
    Except Failure Db := do
  let _ ← lockOwner db runId owner now
  let record ← expect (db.instances.get instanceId) .missing
  require (record.state = .registered) (.conflict "execution registration already revoked")
  pure
    { db with
      instances := db.instances.put
        { record with leaseToken := some owner.1, ownershipEpoch := some owner.2 } }

/-- The instance holds the lease the task was last granted. -/
def SameOwner (record : GraphExecutionInstance) (task : ModelExecutionTask) : Prop :=
  record.leaseToken ≠ none ∧ record.leaseToken = task.leaseToken ∧
    record.ownershipEpoch = some task.ownershipEpoch

instance (record : GraphExecutionInstance) (task : ModelExecutionTask) :
    Decidable (SameOwner record task) := inferInstanceAs (Decidable (_ ∧ _ ∧ _))

/-- A task whose lease was taken away: its epoch moves on. -/
def ModelExecutionTask.revoked (task : ModelExecutionTask) (retryAt : Time) :
    ModelExecutionTask :=
  { task.retrying retryAt with ownershipEpoch := task.ownershipEpoch + 1 }

/-- A task the seller sends back, with one more attempt. -/
def ModelExecutionTask.recovered (task : ModelExecutionTask) (action : RecoveryAct) :
    ModelExecutionTask :=
  { task.withoutLease with
    status := .pending
    maxAttempts := max task.maxAttempts (task.attemptCount + 1)
    manualRetryCount := task.manualRetryCount + 1
    nextRetryAt := none
    lastManualAction := some action }

/-- Take the lease away; the run may be tried again at once. -/
def revoke (db : Db) (run : NegotiationInput) (task : ModelExecutionTask)
    (settled retried : Time) : Except Failure Db := do
  let saved ← db.saveTask (task.revoked retried)
  pure (saved.putInput (settle run settled))

/-- Take the lease away if the instance still holds it. -/
def revokeOwner (db : Db) (record : GraphExecutionInstance) (run : NegotiationInput)
    (task : ModelExecutionTask) (now : Time) : Except Failure Db :=
  if SameOwner record task ∧ task.status = .running then revoke db run task now now
  else pure db

/-- The time is over in which the run or the instance may still be executing. -/
def Overdue (run : NegotiationInput) (record : GraphExecutionInstance) (now : Time) : Prop :=
  (run.closingDeadline ≠ none ∧ ¬ Ahead run.closingDeadline now) ∨
    record.registeredAt + seconds 150 ≤ now

instance (run : NegotiationInput) (record : GraphExecutionInstance) (now : Time) :
    Decidable (Overdue run record now) := inferInstanceAs (Decidable (_ ∨ _))

/-- A registered instance that is still starting, or whose owner is at work. -/
def AtWork (run : NegotiationInput) (task : ModelExecutionTask)
    (record : GraphExecutionInstance) (now : Time) : Prop :=
  record.state = .registered ∧
    ((record.leaseToken = none ∧ now < record.registeredAt + seconds 30) ∨
      (SameOwner record task ∧ Ahead task.leaseExpiresAt now ∧ ¬ Overdue run record now))

instance (run : NegotiationInput) (task : ModelExecutionTask) (record : GraphExecutionInstance)
    (now : Time) : Decidable (AtWork run task record now) :=
  inferInstanceAs (Decidable (_ ∧ (_ ∧ _ ∨ _ ∧ _ ∧ ¬ _)))

/-- The first transaction of a cleanup: the ownership of the instance ends before its
connection does. It answers whether there is a connection to end. -/
def cleanupInstance (db : Db) (instanceId : Nat) (force : Bool) (now : Time) :
    Except Failure (Db × Bool) :=
  match db.instances.get instanceId with
  | none => pure (db, false)
  | some record => do
    let run ← expect (db.inputs.get record.inputId) .missing
    let stored ← expect (db.tasks.get run.taskId) .missing
    let task := stored.val
    if record.state = .released ∨ (force = false ∧ AtWork run task record now) then
      pure (db, false)
    else do
      let revoked ← revokeOwner db record run task now
      pure
        ({ revoked with instances := revoked.instances.put { record with state := .revoked } },
          true)

/-- The last transaction of a cleanup, after the connection was seen to be gone. -/
def releaseInstance (db : Db) (instanceId : Nat) : Except Failure Db := do
  let record ← expect (db.instances.get instanceId) .missing
  pure { db with instances := db.instances.put { record with state := .released } }

/-! ### The supervisor -/

/-- The moment at which the supervisor stops waiting for the process it watches. -/
def supervisedDeadline (db : Db) (run : NegotiationInput) : Option Time :=
  let closing :=
    match run.closingDeadline, run.activeSince with
    | some closing, _ => some closing
    | none, some since =>
      some (since + ((run.config.active - run.activeMs * 1000) + closingWindow))
    | none, none => none
  match db.reply run.id with
  | none => closing
  | some delivery =>
    some (match closing with
      | some closing => min closing (delivery.replyDeadline + closingWindow)
      | none => delivery.replyDeadline + closingWindow)

/-- The supervisor revokes the lease of the process it is about to kill. The kill was decided
in an earlier read, so that nothing but the instance's own record guards it. -/
def supervisorKill (db : Db) (runId instanceId : Nat) (settled retried : Time) :
    Except Failure Db := do
  let run ← expect (db.inputs.get runId) .missing
  let stored ← expect (db.tasks.get run.taskId) .missing
  let task := stored.val
  match db.instances.get instanceId with
  | none => pure db
  | some record =>
    if task.status = .running ∧ record.leaseToken = task.leaseToken ∧
        record.ownershipEpoch = some task.ownershipEpoch then
      revoke db run task settled retried
    else pure db

/-! ### Recovery actions -/

/-- The seller sends the head of the queue back, to be tried again or to be wound up. -/
def recoverRun (db : Db) (runId : Nat) (action : RecoveryAct) (now : Time) :
    Except Failure Db := do
  let run ← expect (db.inputs.get runId) .missing
  let stored ← expect (db.tasks.get run.taskId) .missing
  let task := stored.val
  require (run.inputSeq = db.session.lastResolvedInputSeq + 1)
    (.conflict "只能处置当前队首，不能回拨历史任务")
  require (¬ Ahead task.leaseExpiresAt now) (.conflict "执行租约仍有效")
  require (action ≠ .notify ∧ task.status ≠ .succeeded ∧ task.status ≠ .cancelled)
    (.conflict "当前任务状态不支持该操作")
  let saved ← db.saveTask (task.recovered action)
  pure (saved.putInput { run with recoveryRequired := false })

/-- The seller sends a notice that was given up to be tried again. -/
def recoverNotification (db : Db) (source : SourceId) (action : RecoveryAct) :
    Except Failure Db := do
  let item ← expect (db.deliveries.get source) .missing
  require (action = .notify ∧ item.status = .manualRequired)
    (.conflict "通知只能重试，不能丢弃已提交结果")
  pure
    { db with
      deliveries := db.deliveries.put
        { item with status := .pending, nextRetryAt := none, leaseToken := none
                    leaseUntil := none } }

/-- The target of a recovery action exists. -/
def TargetExists (db : Db) : RecoveryTarget → Prop
  | .run runId => db.inputs.get runId ≠ none
  | .notification source => db.deliveries.get source ≠ none

instance (db : Db) (target : RecoveryTarget) : Decidable (TargetExists db target) :=
  match target with
  | .run runId => inferInstanceAs (Decidable (db.inputs.get runId ≠ none))
  | .notification source => inferInstanceAs (Decidable (db.deliveries.get source ≠ none))

def recoverTarget (db : Db) (target : RecoveryTarget) (action : RecoveryAct) (now : Time) :
    Except Failure Db :=
  match target with
  | .run runId => recoverRun db runId action now
  | .notification source => recoverNotification db source action

variable [Platform]

/-- `act`: one recovery action of the seller, recorded under its request. -/
def act (db : Db) (seller : String) (target : RecoveryTarget) (action : RecoveryAct)
    (requestId reason : String) (now : Time) : Except Failure Db := do
  require (strip reason ≠ "") (.conflict "请选择恢复操作并填写原因")
  require (TargetExists db target ∧ db.product.sellerId = seller)
    (.conflict "恢复目标不存在或无权访问")
  require (db.session.archivedAt = none) (.conflict "会话已归档")
  let key := digest (.list [.text seller, .text requestId])
  match db.actions.get key with
  | some old => do
    require (old.target = target ∧ old.action = action ∧ old.reason = reason)
      (.conflict "恢复请求载荷冲突")
    pure db
  | none => do
    let recovered ← recoverTarget db target action now
    let actions ← recovered.actions.insert { id := key, target, action, reason } .unique
    pure { recovered with actions }

end Negotiation
