/-
This file puts the transactions together into one system: the database of a
session, the threads and the processes of its approvals, and a clock that never
goes back. A process may call a transaction at any time and with any argument,
one that lost its lease as well as one that never had it; a transaction that
fails leaves the database as it was.
-/

import SecondhandAgent.Ledger
import SecondhandAgent.Maintenance
import SecondhandAgent.Operations
import SecondhandAgent.Runner
import SecondhandAgent.Runs

namespace Negotiation

open Store

/-- A transaction on the database with its arguments; the times are what the clock reads at
the points where the code asks for it. -/
inductive Transaction where
  | enqueue (buyerId requestId : String) (payload : Payload) (config : Option Config) (now : Time)
  | claim (runId : Nat) (now : Time)
  | heartbeat (runId : Nat) (owner : Owner) (checked extended compared : Time)
  | release (runId : Nat) (owner : Owner) (recoveryRequired : Bool)
      (checked settled retried : Time)
  | finalize (runId : Nat) (owner : Owner) (values : TurnValues) (pending : Bool)
      (checked settled : Time)
  | registerInstance (runId : Nat) (now : Time)
  | attachOwner (runId instanceId : Nat) (owner : Owner) (now : Time)
  | cleanupInstance (instanceId : Nat) (force : Bool) (now : Time)
  | releaseInstance (instanceId : Nat)
  | supervisorKill (runId instanceId : Nat) (settled retried : Time)
  | act (seller : String) (target : RecoveryTarget) (action : RecoveryAct)
      (requestId reason : String) (now : Time)
  | planTurn (runId : Nat) (owner : Owner) (plan : TurnPlan) (now : Time)
  | execute (runId : Nat) (owner : Owner) (expectedVersion : Nat) (now : Time)
      (fault : Option FaultPoint)
  | abortOrQuery (runId : Nat) (owner : Owner) (reason : Option String)
      (checked assessed noticed : Time)
  | reserveCall (runId : Nat) (owner : Owner) (step : String) (reservedTokens : Int)
      (reservedCost : Option Int) (checked timed : Time)
  | acceptCall (runId : Nat) (owner : Owner) (attemptId : Nat) (value : Json)
      (actualTokens actualCost : Option Int) (now : Time)
  | settleCall (attemptId : Nat) (status : CallStatus) (actualTokens actualCost : Option Int)
  | publishOwned (runId : Nat) (owner : Owner) (now : Time)
  | claimNotification (source : SourceId) (now : Time)
  | retryNotification (source : SourceId) (token : Nat) (now : Time)
  | publishNotified (runId : Option Nat) (source : SourceId) (token : Nat) (now : Time)
  | display (buyerId : String) (contextId : Nat) (viewId requestId : String)
      (compared checked displayed : Time)
  | refreshContext (buyerId : String) (contextId : Nat) (requestId : String) (now : Time)
  | updateOwnedProduct (seller title description : String) (listedPrice : Money)
      (status : ProductStatus)
  | updateOwnedPolicy (seller : String) (minimumNetPrice autoAcceptThreshold : Money)
      (maxRounds expectedVersion : Nat)
  | setFact (seller : String) (value : FactValue) (expected : Nat)
  | setRule (seller : String) (data : RuleData) (now : Time)
  | recheckItem (seller : String) (itemId : Nat) (now : Time)
  | review (seller : String) (approvalId : Nat) (requestId : String) (comment : Option String)
      (approved : Bool) (expectedRevision : Option Nat) (now : Time) (fault : Option FaultPoint)
  | reconcileOffer (now : Time)
  | archive (latest : Time) (unfinished : Bool) (checked archived : Time)
  | reconcile (approvalId : Nat) (now : Time)
  | applyApproval (approvalId : Nat) (eventId : EventId) (owner : Owner) (now : Time)
      (fault : Option FaultPoint)
  | acknowledge (approvalId : Nat) (events : List EventId) (owner : Owner) (now : Time)
  | claimExecution (approvalId : Nat) (now : Time)
  | releaseExecution (approvalId : Nat) (owner : Owner) (checkpoint : Option Nat)
      (failed recovery : Bool) (checked retried : Time)

namespace Transaction

/-- What the clock reads during the transaction, in this order. -/
def readings : Transaction → List Time
  | enqueue _ _ _ _ now | claim _ now | registerInstance _ now | attachOwner _ _ _ now
  | cleanupInstance _ _ now | act _ _ _ _ _ now | planTurn _ _ _ now | execute _ _ _ now _
  | acceptCall _ _ _ _ _ _ now | publishOwned _ _ now | claimNotification _ now
  | retryNotification _ _ now | publishNotified _ _ _ now | refreshContext _ _ _ now
  | setRule _ _ now | recheckItem _ _ now | review _ _ _ _ _ _ now _ | reconcileOffer now
  | reconcile _ now | applyApproval _ _ _ now _ | acknowledge _ _ _ now
  | claimExecution _ now => [now]
  | supervisorKill _ _ one two | finalize _ _ _ _ one two | reserveCall _ _ _ _ _ one two
  | archive _ _ one two | releaseExecution _ _ _ _ _ one two => [one, two]
  | heartbeat _ _ one two three | release _ _ _ one two three
  | abortOrQuery _ _ _ one two three | display _ _ _ _ one two three => [one, two, three]
  | releaseInstance _ | settleCall _ _ _ _ | updateOwnedProduct _ _ _ _ _
  | updateOwnedPolicy _ _ _ _ _ | setFact _ _ _ => []

/-- The transactions that only the runner of an approval makes. -/
def OfRunner : Transaction → Prop
  | reconcile _ _ | applyApproval _ _ _ _ _ | acknowledge _ _ _ _ | claimExecution _ _
  | releaseExecution _ _ _ _ _ _ _ => True
  | _ => False

end Transaction

section

variable [Platform]

/-- The database after the transaction. -/
def Db.perform (db : Db) : Transaction → Except Failure Db
  | .enqueue buyerId requestId payload config now =>
    (enqueue db buyerId requestId payload config now).map (·.1)
  | .claim runId now => (claim db runId now).map (·.1)
  | .heartbeat runId owner checked extended compared =>
    heartbeat db runId owner checked extended compared
  | .release runId owner recoveryRequired checked settled retried =>
    release db runId owner recoveryRequired checked settled retried
  | .finalize runId owner values pending checked settled =>
    finalize db runId owner values pending checked settled
  | .registerInstance runId now => (registerInstance db runId now).map (·.1)
  | .attachOwner runId instanceId owner now => attachOwner db runId instanceId owner now
  | .cleanupInstance instanceId force now => (cleanupInstance db instanceId force now).map (·.1)
  | .releaseInstance instanceId => releaseInstance db instanceId
  | .supervisorKill runId instanceId settled retried =>
    supervisorKill db runId instanceId settled retried
  | .act seller target action requestId reason now =>
    act db seller target action requestId reason now
  | .planTurn runId owner plan now => planTurn db runId owner plan now
  | .execute runId owner expectedVersion now fault =>
    (execute db runId owner expectedVersion now fault).map (·.1)
  | .abortOrQuery runId owner reason checked assessed noticed =>
    (abortOrQuery db runId owner reason checked assessed noticed).map (·.1)
  | .reserveCall runId owner step reservedTokens reservedCost checked timed =>
    (reserveCall db runId owner step reservedTokens reservedCost checked timed).map (·.1)
  | .acceptCall runId owner attemptId value actualTokens actualCost now =>
    acceptCall db runId owner attemptId value actualTokens actualCost now
  | .settleCall attemptId status actualTokens actualCost =>
    settleCall db attemptId status actualTokens actualCost
  | .publishOwned runId owner now => (publishOwned db runId owner now).map (·.1)
  | .claimNotification source now => (claimNotification db source now).map (·.1)
  | .retryNotification source token now => retryNotification db source token now
  | .publishNotified runId source token now =>
    (publishNotified db runId source token now).map (·.1)
  | .display buyerId contextId viewId requestId compared checked displayed =>
    (display db buyerId contextId viewId requestId compared checked displayed).map (·.1)
  | .refreshContext buyerId contextId requestId now =>
    (refreshContext db buyerId contextId requestId now).map (·.1)
  | .updateOwnedProduct seller title description listedPrice status =>
    updateOwnedProduct db seller title description listedPrice status
  | .updateOwnedPolicy seller minimumNetPrice autoAcceptThreshold maxRounds expectedVersion =>
    updateOwnedPolicy db seller minimumNetPrice autoAcceptThreshold maxRounds expectedVersion
  | .setFact seller value expected => setFact db seller value expected
  | .setRule seller data now => setRule db seller data now
  | .recheckItem seller itemId now => recheckItem db seller itemId now
  | .review seller approvalId requestId comment approved expectedRevision now fault =>
    (review db seller approvalId requestId comment approved expectedRevision now fault).map (·.1)
  | .reconcileOffer now => reconcileOffer db now
  | .archive latest unfinished checked archived => archive db latest unfinished checked archived
  | .reconcile approvalId now => reconcile db approvalId now
  | .applyApproval approvalId eventId owner now fault =>
    (applyApproval db approvalId eventId owner now fault).map (·.1)
  | .acknowledge approvalId events owner now => acknowledge db approvalId events owner now
  | .claimExecution approvalId now => .ok (claimExecution db approvalId now).1
  | .releaseExecution approvalId owner checkpoint failed recovery checked retried =>
    releaseExecution db approvalId owner checkpoint failed recovery checked retried

end

/-! ### The system -/

/-- The database, the checkpoints of the approval threads, the approval runners that are alive
and the clock. -/
structure World where
  clock : Time
  db : Db
  threads : Nat → Checkpoint
  runners : Table Runner.token

/-- One event: a transaction of a process other than an approval runner, or what happens to an
approval runner. A runner can raise or die at any point. -/
inductive Event where
  | call (transaction : Transaction)
  | runnerClaim (approvalId : Nat) (now : Time)
  | runnerStep (token : Nat) (now later : Time) (fault : Option FaultPoint)
  | runnerRaise (token : Nat)
  | runnerCrash (token : Nat)

namespace Event

def readings : Event → List Time
  | call transaction => transaction.readings
  | runnerClaim _ now => [now]
  | runnerStep _ now later _ => [now, later]
  | runnerRaise _ | runnerCrash _ => []

/-- The transactions of an approval runner are left to approval runners. -/
def Allowed : Event → Prop
  | call transaction => ¬ transaction.OfRunner
  | _ => True

end Event

/-- The readings do not go back. -/
def Timely (clock : Time) : List Time → Prop
  | [] => True
  | reading :: rest => clock ≤ reading ∧ Timely reading rest

namespace World

/-- A runner that took the ownership of an approval's execution. -/
def addRunner (world : World) (approvalId : Nat) (now : Time) : World :=
  match claimExecution world.db approvalId now with
  | (db, none) => { world with db }
  | (db, some owner) =>
    { world with db, runners := world.runners.insertIgnore { approvalId, owner } }

/-- Take a runner out of the system. -/
def dropRunner (world : World) (runner : Runner) : World :=
  { world with runners := world.runners.remove runner.token }

/-- A runner at its next stage; without one it is over. -/
def setStage (world : World) (runner : Runner) (stage : Option Stage) : World :=
  match stage with
  | none => world.dropRunner runner
  | some stage => { world with runners := world.runners.put { runner with stage } }

variable [Platform]

/-- One step of a runner. -/
def stepRunner (world : World) (runner : Runner) (now later : Time)
    (fault : Option FaultPoint) : World :=
  match advance world.db (world.threads runner.approvalId) runner now later fault with
  | .ok next =>
    { world with
      db := next.db
      threads := Function.update world.threads runner.approvalId next.thread }.setStage
      runner next.stage
  | .error fault => world.setStage runner (runner.stage.afterError fault)

/-- The transaction's result, or the database as it was. -/
def settleTransaction (world : World) (transaction : Transaction) : World :=
  match world.db.perform transaction with
  | .ok db => { world with db }
  | .error _ => world

/-- The world after an event, apart from the clock. -/
def react (world : World) : Event → World
  | .call transaction => world.settleTransaction transaction
  | .runnerClaim approvalId now => world.addRunner approvalId now
  | .runnerStep token now later fault =>
    match world.runners.get token with
    | none => world
    | some runner => world.stepRunner runner now later fault
  | .runnerRaise token =>
    match world.runners.get token with
    | none => world
    | some runner => world.setStage runner (some (.failed false))
  | .runnerCrash token =>
    match world.runners.get token with
    | none => world
    | some runner => world.dropRunner runner

/-- The world after an event. -/
def next (world : World) (event : Event) : World :=
  { world.react event with clock := event.readings.getLastD world.clock }

/-- The step relation of the system. -/
def Step (before : World) (event : Event) (after : World) : Prop :=
  Timely before.clock event.readings ∧ event.Allowed ∧ after = before.next event

omit [Platform]

/-- A session as its enrolment leaves it: nothing has happened in it. The shipping rules carry
versions that the goods have reached. -/
def Initial (world : World) : Prop :=
  (∃ buyerId graphVersion product policy facts rules nextId,
    world.db =
      { session := { buyerId, graphVersion }, product, policy, facts, rules, nextId }) ∧
    (∀ approvalId, world.threads approvalId = {}) ∧ world.runners = .empty ∧
    ∀ rule ∈ world.db.rules, rule.version ≤ world.db.product.productVersion

end World

end Negotiation
