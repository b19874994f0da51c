/-
This file models the process that executes the graph of an approval. Its graph
is a checkpoint in another database, its transactions are those of the approval
service, and between any two of its steps another process can run, it can raise
or it can die: a stage of the process is what it still remembers at that point.
-/

import SecondhandAgent.Approval
import SecondhandAgent.Notification

namespace Negotiation

open Store

/-! ### The graph -/

inductive Node where
  | start
  | loadApproval
  | waitForSeller
  | applyResult
  | publishNotice
deriving DecidableEq

/-- The values of the approval graph. -/
structure ApprovalState where
  eventId : Option EventId := none
  result : Option Result := none
  publicMessageId : Option Nat := none
deriving DecidableEq

/-- The last checkpoint of a thread; `next` is the node it goes on with, and a thread without
values was never run. -/
structure Checkpoint where
  checkpointId : Nat := 0
  values : Option ApprovalState := none
  next : Option Node := none
  interrupted : Bool := false
deriving DecidableEq

namespace Checkpoint

/-- The checkpoint that a step of the graph writes. -/
def write (thread : Checkpoint) (values : Option ApprovalState) (next : Option Node)
    (interrupted : Bool := false) : Checkpoint where
  checkpointId := thread.checkpointId + 1
  values
  next
  interrupted

/-- The result of the thread's last application. -/
def result (thread : Checkpoint) : Option Result := thread.values.bind (·.result)

/-- The values of the thread, or those a run starts with. -/
def state (thread : Checkpoint) : ApprovalState := thread.values.getD {}

end Checkpoint

/-! ### The process -/

/-- What a runner is about to do, with what it remembers. -/
inductive Stage where
  | reconciling
  | inspecting
  | coveringEarlier (found : Checkpoint)
  | acknowledgingEarlier (found : Checkpoint) (events : List EventId)
  | deciding (found : Checkpoint)
  | resuming (found : Checkpoint)
  | running (resume : Option EventId)
  | applied (result : Result)
  | publishing (token : Nat)
  | retrying (token : Nat)
  | noticed (messageId : Option Nat)
  | finishing
  | covering (final : Checkpoint)
  | acknowledging (final : Checkpoint) (events : List EventId)
  | releasing (checkpointId : Nat)
  | failed (recovery : Bool)
deriving DecidableEq

structure Runner where
  approvalId : Nat
  owner : Owner
  stage : Stage := .reconciling

/-- Two runners never have the same lease token. -/
def Runner.token (runner : Runner) : Nat := runner.owner.1

/-- What one step of a runner leaves; a process without a stage is over. -/
structure Advance where
  db : Db
  thread : Checkpoint
  stage : Option Stage

/-- The receipt is the one of an application of the approval. -/
def ReceiptId.isApplyOf (approvalId : Nat) : ReceiptId → Bool
  | .approvalApply id _ => id = approvalId
  | _ => false

/-- An application of the approval has its receipt. -/
def HasApplied (db : Db) (approvalId : Nat) : Prop :=
  ∃ receipt ∈ db.receipts.rows, receipt.id.isApplyOf approvalId = true

instance (db : Db) (approvalId : Nat) : Decidable (HasApplied db approvalId) :=
  inferInstanceAs (Decidable (∃ receipt ∈ db.receipts.rows, _))

/-- The entry of a run: the checkpoint must not have been lost. -/
def inspect (db : Db) (thread : Checkpoint) (approvalId : Nat) : Except Failure Advance := do
  let execution ← expect (db.executions.get approvalId) .missing
  require (thread.values ≠ none ∨
      (execution.checkpointRef = none ∧ ¬ HasApplied db approvalId))
    (.recoveryConflict "审批 checkpoint 缺失或版本不匹配")
  let ended : Bool := thread.next = none ∧ thread.result ≠ none
  pure
    { db, thread
      stage := some (if ended then .coveringEarlier thread else .deciding thread) }

/-- Start the graph, go on with it, or find that there is nothing to run. -/
def decideEntry (db : Db) (thread found : Checkpoint) (approvalId : Nat) : Advance :=
  let pending := pendingEvents db approvalId
  if found.values = none ∨ (found.next = none ∧ pending ≠ []) then
    { db, thread := thread.write thread.values (some .start), stage := some (.running none) }
  else if found.next ≠ none then { db, thread, stage := some (.resuming found) }
  else { db, thread, stage := some .finishing }

/-- Go on with a graph that was left in the middle; one that waits for the seller is resumed
only with a terminal event. -/
def resumeEntry (db : Db) (thread found : Checkpoint) (approvalId : Nat) :
    Except Failure Advance := do
  let event ← terminalEvent db approvalId
  if found.interrupted then
    match event with
    | some event => pure { db, thread, stage := some (.running (some event)) }
    | none => pure { db, thread, stage := some .finishing }
  else pure { db, thread, stage := some (.running none) }

/-- The source of the notice of a result. -/
def noticeSource (approvalId : Nat) (result : Option Result) : SourceId :=
  .approvalResult approvalId ((result.bind (·.effectRevision)).getD 0)

variable [Platform]

/-- One node of the graph. A node writes its checkpoint after its transaction. -/
def runNode (db : Db) (thread : Checkpoint) (runner : Runner) (resume : Option EventId)
    (now : Time) (fault : Option FaultPoint) : Except Failure Advance :=
  match thread.next with
  | none => pure { db, thread, stage := some .finishing }
  | some .start =>
    pure
      { db
        thread := thread.write (some {}) (some .loadApproval)
        stage := some (.running none) }
  | some .loadApproval => do
    let event ← terminalEvent db runner.approvalId
    let node := if event = none then Node.waitForSeller else .applyResult
    pure
      { db
        thread := thread.write (some { thread.state with eventId := event }) (some node)
        stage := some (.running none) }
  | some .waitForSeller =>
    match resume with
    | none =>
      pure
        { db
          thread := thread.write thread.values thread.next true
          stage := some .finishing }
    | some event =>
      pure
        { db
          thread := thread.write (some { thread.state with eventId := some event })
            (some .applyResult)
          stage := some (.running none) }
  | some .applyResult => do
    let event ← expect thread.state.eventId .missing
    let (applied, result) ← applyApproval db runner.approvalId event runner.owner now fault
    pure { db := applied, thread, stage := some (.applied result) }
  | some .publishNotice => do
    let source := noticeSource runner.approvalId thread.result
    let item ← expect (db.deliveries.get source) .missing
    if item.status = .published then
      pure { db, thread, stage := some (.noticed item.publicMessageId) }
    else do
      let (claimed, token) ← claimNotification db source now
      match token with
      | some token => pure { db := claimed, thread, stage := some (.publishing token) }
      | none => pure { db := claimed, thread, stage := some (.noticed none) }

/-- One step of a runner, up to the next point at which it can be interrupted. -/
def advance (db : Db) (thread : Checkpoint) (runner : Runner) (now later : Time)
    (fault : Option FaultPoint) : Except Failure Advance :=
  let approvalId := runner.approvalId
  match runner.stage with
  | .reconciling => do
    let reconciled ← reconcile db approvalId now
    pure { db := reconciled, thread, stage := some .inspecting }
  | .inspecting => inspect db thread approvalId
  | .coveringEarlier found =>
    pure
      { db, thread
        stage := some (.acknowledgingEarlier found (coveredEvents db approvalId found.result)) }
  | .acknowledgingEarlier found events => do
    let marked ← acknowledge db approvalId events runner.owner now
    pure { db := marked, thread, stage := some (.deciding found) }
  | .deciding found => pure (decideEntry db thread found approvalId)
  | .resuming found => resumeEntry db thread found approvalId
  | .running resume => runNode db thread runner resume now fault
  | .applied result =>
    pure
      { db
        thread := thread.write (some { thread.state with result := some result })
          (some .publishNotice)
        stage := some (.running none) }
  | .publishing token => do
    let source := noticeSource approvalId thread.result
    let (published, messageId) ← publishNotified db none source token now
    pure { db := published, thread, stage := some (.noticed messageId) }
  | .retrying token => do
    let retried ← retryNotification db (noticeSource approvalId thread.result) token now
    pure { db := retried, thread, stage := some (.failed false) }
  | .noticed messageId =>
    pure
      { db
        thread := thread.write (some { thread.state with publicMessageId := messageId }) none
        stage := some (.running none) }
  | .finishing =>
    let ended : Bool := thread.next = none
    pure
      { db, thread
        stage := some (if ended then .covering thread
          -- A terminal event that raced the graph is left pending.
          else .acknowledging thread [.approval approvalId .requested]) }
  | .covering final =>
    pure
      { db, thread
        stage := some (.acknowledging final (coveredEvents db approvalId final.result)) }
  | .acknowledging final events => do
    let marked ← acknowledge db approvalId events runner.owner now
    pure { db := marked, thread, stage := some (.releasing final.checkpointId) }
  | .releasing checkpointId => do
    let released ← releaseExecution db approvalId runner.owner (some checkpointId) false false
      now later
    pure { db := released, thread, stage := none }
  | .failed recovery => do
    let released ← releaseExecution db approvalId runner.owner none true recovery now later
    pure { db := released, thread, stage := none }

omit [Platform] in
/-- Where a runner goes when a step raises. -/
def Stage.afterError (stage : Stage) (fault : Failure) : Option Stage :=
  match stage with
  | .publishing token => some (.retrying token)
  | .failed _ => none
  | _ =>
    match fault with
    | .recoveryConflict _ => some (.failed true)
    | _ => some (.failed false)

end Negotiation
