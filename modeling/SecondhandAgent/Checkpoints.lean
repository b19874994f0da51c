/-
This file models the process that executes the graph of a turn, and the
checkpoint of its thread. The checkpoint is kept in another database than the
rows, so a process that comes after one that died first finds out how far the
turn got: it compares the checkpoint with the input at the head and looks for
traces of the turn in the rows. Between any two of its steps a process can raise
or die, and it can lose the connection that holds the lock of the thread, through
which alone it reads and writes checkpoints.
-/

import SecondhandAgent.Fencing
import SecondhandAgent.Winding

namespace Negotiation

open Store

/-! ### The entry of a run -/

/-- `RunIdentity`: what a checkpoint of the run has to say. -/
structure RunIdentity where
  runId : Nat
  inputSeq : Nat
  inputHash : Digest
  configHash : Digest
  graphVersion : GraphVersion

inductive RunEntry where
  | start
  | resume
  | finalize
  | history
deriving DecidableEq

/-- The first field in which a checkpoint of the run differs from it is a conflict. -/
def RunIdentity.check (identity : RunIdentity) (values : TurnValues) : Except Failure Unit := do
  require (values.inputSeq = identity.inputSeq) (.recoveryConflict "checkpoint mismatch: input_seq")
  require (values.inputHash = identity.inputHash)
    (.recoveryConflict "checkpoint mismatch: input_hash")
  require (values.configHash = identity.configHash)
    (.recoveryConflict "checkpoint mismatch: config_hash")
  require (values.graphVersion = identity.graphVersion)
    (.recoveryConflict "checkpoint mismatch: graph_version")

/-- The run begins anew only at the head, on a thread that is done and without a trace. -/
def beginAnew (pending hasEvidence isHead : Prop) [Decidable pending] [Decidable hasEvidence]
    [Decidable isHead] : Except Failure RunEntry := do
  require (isHead ∧ ¬ hasEvidence ∧ ¬ pending)
    (.recoveryConflict "missing or foreign checkpoint; keep FIFO barrier")
  pure .start

/-- `choose_entry`: how a process enters the run, from the values of the thread and whether
something is pending there. -/
def chooseEntry (identity : RunIdentity) (values : Option TurnValues)
    (pending hasEvidence isHead : Prop) [Decidable pending] [Decidable hasEvidence]
    [Decidable isHead] : Except Failure RunEntry :=
  match values with
  | none => beginAnew pending hasEvidence isHead
  | some values =>
    if identity.inputSeq < values.inputSeq then .ok .history
    else if values.runId = identity.runId then do
      identity.check values
      pure (if pending then .resume else .finalize)
    else beginAnew pending hasEvidence isHead

/-! ### The graph of a turn -/

inductive TurnNode where
  | start
  | authorize
  | prepareContext
  | parseIntents
  | planIntents
  | commitBusiness
  | composeReply
  | reviewReply
  | publishReply
deriving DecidableEq

namespace TurnNode

/-- The node behind the start. -/
def first : GraphVersion → TurnNode
  | .negotiationV1 => authorize
  | .negotiationV2 => parseIntents
  | .negotiationV3 => prepareContext

/-- The edges of the graph; `none` is its end. -/
def successors (version : GraphVersion) : TurnNode → List (Option TurnNode)
  | start => [some (first version)]
  | authorize => [some commitBusiness]
  | prepareContext => [some parseIntents]
  | parseIntents => [some planIntents]
  | planIntents => [some commitBusiness]
  | commitBusiness =>
    if version = .negotiationV3 then [some composeReply] else [some publishReply]
  | composeReply => [some reviewReply]
  | reviewReply => [some composeReply, some publishReply]
  | publishReply => [none]

theorem first_ne_start (version : GraphVersion) : first version ≠ start := by
  cases version <;> decide

/-- Nothing leads back to the start. -/
theorem start_not_mem (version : GraphVersion) (node : TurnNode) :
    some start ∉ node.successors version := by
  cases version <;> cases node <;> decide

/-- The graph ends behind the reply. -/
theorem ends_with_reply (version : GraphVersion) (node : TurnNode) :
    none ∈ node.successors version → node = publishReply := by
  cases version <;> cases node <;> decide

/-- The kinds of transactions a node makes in the name of its owner. -/
def calls : TurnNode → Transaction → Bool
  | parseIntents, .reserveCall _ _ _ _ _ _ _ | parseIntents, .acceptCall _ _ _ _ _ _ _
  | parseIntents, .planTurn _ _ _ _ | planIntents, .planTurn _ _ _ _
  | commitBusiness, .execute _ _ _ _ _ | commitBusiness, .abortOrQuery _ _ _ _ _ _
  | composeReply, .reserveCall _ _ _ _ _ _ _ | composeReply, .acceptCall _ _ _ _ _ _ _
  | reviewReply, .reserveCall _ _ _ _ _ _ _ | reviewReply, .acceptCall _ _ _ _ _ _ _
  | publishReply, .publishOwned _ _ _ => true
  | _, _ => false

/-- The nodes that name the checkpoint in the row of the run, or add the row of its quality. -/
def leavesTrace : TurnNode → Bool
  | authorize | prepareContext | parseIntents => true
  | _ => false

end TurnNode

/-- The last checkpoint of a thread: the values of the state, the node that comes next, and
before the start has run the values it is given. The values are those of the last turn until the
start has run. -/
structure TurnCheckpoint where
  values : Option TurnValues := none
  next : Option TurnNode := none
  input : Option TurnValues := none

/-! ### The process -/

/-- Where a process is, with what it remembers. -/
inductive Position where
  | waiting
  | claimed (owner : Owner)
  | inspected (owner : Owner) (snapshot : TurnCheckpoint)
  | starting (owner : Owner)
  | entering (owner : Owner)
  | running (owner : Owner) (node : TurnNode)
  | stopping (owner : Owner)
  | ended (owner : Owner)
  | closing (owner : Owner) (values : TurnValues) (pending : Bool)
  | failing (owner : Owner) (recovery : Bool)

/-- A process of `GraphRunner._run`, with the input as it read it. -/
structure GraphProcess where
  run : NegotiationInput
  position : Position := .waiting

def NegotiationInput.identity (run : NegotiationInput) : RunIdentity where
  runId := run.id
  inputSeq := run.inputSeq
  inputHash := run.inputHash
  configHash := run.configHash
  graphVersion := run.graphVersion

/-- The system together with the thread of the session: the process whose connection holds its
lock, those that go on without a connection, and the runs that have a trace of a checkpoint or
of quality. -/
structure Site where
  world : World
  thread : TurnCheckpoint := {}
  traced : List Nat := []
  holder : Option GraphProcess := none
  lost : List GraphProcess := []

/-- The rows show that the run was executed. -/
def Attested (db : Db) (runId : Nat) : Prop :=
  (∃ call ∈ db.ledger.rows, call.inputId = runId) ∨
    (∃ receipt ∈ db.receipts.rows, receipt.inputId = some runId) ∨
    ∃ item ∈ db.deliveries.rows, item.inputId = some runId

instance (db : Db) (runId : Nat) : Decidable (Attested db runId) :=
  inferInstanceAs (Decidable ((∃ call ∈ db.ledger.rows, _) ∨ (∃ receipt ∈ db.receipts.rows, _) ∨
    ∃ item ∈ db.deliveries.rows, _))

/-- There is evidence of the run. -/
def Site.HasEvidence (site : Site) (runId : Nat) : Prop :=
  runId ∈ site.traced ∨ Attested site.world.db runId

instance (site : Site) (runId : Nat) : Decidable (site.HasEvidence runId) :=
  inferInstanceAs (Decidable (_ ∨ _))

/-- The seller has stopped the run. -/
def Terminated (db : Db) (run : NegotiationInput) : Prop :=
  (db.tasks.get run.taskId).bind (·.val.lastManualAction) = some .terminate

instance (db : Db) (run : NegotiationInput) : Decidable (Terminated db run) :=
  inferInstanceAs (Decidable (_ = _))

/-- The entry of the run, from what the process has read of the thread. -/
def Site.entry (site : Site) (run : NegotiationInput) (snapshot : TurnCheckpoint) :
    Except Failure RunEntry :=
  chooseEntry run.identity snapshot.values (snapshot.next ≠ none) (site.HasEvidence run.id)
    (site.world.db.session.lastResolvedInputSeq + 1 = run.inputSeq)

/-- Where a process goes from the entry. -/
def Site.decide (site : Site) (run : NegotiationInput) (owner : Owner)
    (snapshot : TurnCheckpoint) : Position :=
  if Terminated site.world.db run then
    if snapshot.next ≠ none ∧ snapshot.values.map (·.runId) ≠ some run.id then
      .failing owner true
    else .stopping owner
  else
    match site.entry run snapshot, snapshot.next with
    | .ok .start, _ => .starting owner
    | .ok .resume, some .start => .entering owner
    | .ok .resume, some node => .running owner node
    | .ok .resume, none | .ok .finalize, _ => .ended owner
    | .ok .history, _ | .error _, _ => .failing owner true

/-- The next step of a process. -/
inductive TurnAction where
  | claim (now : Time)
  | inspect
  | decide
  | putInput
  | putStart
  | call (transaction : Transaction)
  | trace (now : Time)
  | finish (next : Option TurnNode)
  | stop
  | conclude
  | finalize (checked settled : Time)
  | raise
  | release (checked settled retried : Time)
  | crash

/-- The owner a process acts as. -/
def Position.owner : Position → Option Owner
  | waiting => none
  | claimed owner | inspected owner _ | starting owner | entering owner | running owner _
  | stopping owner | ended owner | closing owner _ _ | failing owner _ => some owner

/-- The message of the reply that is out. -/
def Db.publishedReply (db : Db) (runId : Nat) : Option Nat := do
  let delivery ← db.reply runId
  guard (delivery.status = .published)
  delivery.publicMessageId

/-- The values behind a node: the publication of the reply adds its message. -/
def Db.valuesBehind (db : Db) (runId : Nat) (node : TurnNode) (values : TurnValues) :
    Option TurnValues :=
  if node = .publishReply then
    (db.publishedReply runId).map fun message => { values with publishedMessageId := some message }
  else some values

section

variable [Platform]

/-- A transaction that a process makes; one that fails leaves the rows as they are. -/
def World.called (world : World) (transaction : Transaction) : Option World :=
  if Timely world.clock transaction.readings then some (world.next (.call transaction)) else none

/-- One step of a process; a process without a position is over. A process whose connection is
gone makes only the steps that need none. -/
def GraphProcess.act (process : GraphProcess) (site : Site) (connected : Bool) :
    TurnAction → Option (Site × Option Position)
  | .claim now =>
    match process.position with
    | .waiting => do
      let world ← site.world.called (.claim process.run.id now)
      match claim site.world.db process.run.id now with
      | .ok (_, some owner) => pure ({ site with world }, some (.claimed owner))
      | .ok (_, none) | .error _ => pure ({ site with world }, none)
    | _ => none
  | .inspect =>
    match process.position with
    | .claimed owner =>
      if process.run.Intact then do
        guard connected
        pure (site, some (.inspected owner site.thread))
      else pure (site, some (.failing owner true))
    | _ => none
  | .decide =>
    match process.position with
    | .inspected owner snapshot => pure (site, some (site.decide process.run owner snapshot))
    | _ => none
  | .putInput =>
    match process.position with
    | .starting owner => do
      guard connected
      let thread : TurnCheckpoint :=
        { site.thread with next := some .start, input := some (newTurn process.run none) }
      pure ({ site with thread }, some (.entering owner))
    | _ => none
  | .putStart =>
    match process.position with
    | .entering owner => do
      guard connected
      let node := TurnNode.first process.run.graphVersion
      pure
        ({ site with thread := { values := site.thread.input, next := some node } },
          some (.running owner node))
    | _ => none
  | .call transaction =>
    match process.position with
    | .running owner node => do
      guard (transaction.byOwner = some (process.run.id, owner) ∧ node.calls transaction)
      let world ← site.world.called transaction
      pure ({ site with world }, some process.position)
    | .stopping owner => do
      guard (transaction.byOwner = some (process.run.id, owner) ∧
        (TurnNode.commitBusiness.calls transaction ∨ TurnNode.publishReply.calls transaction))
      let world ← site.world.called transaction
      pure ({ site with world }, some process.position)
    | _ => none
  | .trace now =>
    match process.position with
    | .running owner node => do
      guard (node.leavesTrace = true ∧ site.world.clock ≤ now)
      let _ ← (lockOwner site.world.db process.run.id owner now).toOption
      pure
        ({ site with traced := process.run.id :: site.traced }, some process.position)
    | _ => none
  | .finish next =>
    match process.position with
    | .running owner node => do
      guard (connected ∧ next ∈ node.successors process.run.graphVersion)
      let values ← site.thread.values
      let values ← site.world.db.valuesBehind process.run.id node values
      let position := match next with
        | some node => Position.running owner node
        | none => .ended owner
      pure ({ site with thread := { values := some values, next } }, some position)
    | _ => none
  | .stop =>
    match process.position with
    | .stopping owner => do
      guard connected
      let message ← site.world.db.publishedReply process.run.id
      let values := newTurn process.run (some message)
      pure ({ site with thread := { values := some values } }, some (.ended owner))
    | _ => none
  | .conclude =>
    match process.position with
    | .ended owner => do
      guard connected
      let values ← site.thread.values
      pure (site, some (.closing owner values (site.thread.next ≠ none)))
    | _ => none
  | .finalize checked settled =>
    match process.position with
    | .closing owner values pending => do
      let transaction : Transaction :=
        .finalize process.run.id owner values pending checked settled
      let world ← site.world.called transaction
      match site.world.db.perform transaction with
      | .ok _ => pure ({ site with world }, none)
      | .error _ => pure ({ site with world }, some (.failing owner false))
    | _ => none
  | .raise => process.position.owner.map fun owner => (site, some (.failing owner false))
  | .release checked settled retried =>
    match process.position with
    | .failing owner recovery => do
      let world ← site.world.called
        (.release process.run.id owner recovery checked settled retried)
      pure ({ site with world }, none)
    | _ => none
  | .crash => pure (site, none)

end

/-! ### The system with the thread -/

/-- The transactions that only the processes of the graph make. -/
def Transaction.isOfGraph : Transaction → Bool
  | .claim _ _ | .finalize _ _ _ _ _ _ | .planTurn _ _ _ _ | .execute _ _ _ _ _
  | .abortOrQuery _ _ _ _ _ _ | .reserveCall _ _ _ _ _ _ _ | .acceptCall _ _ _ _ _ _ _
  | .publishOwned _ _ _ => true
  | _ => false

/-- An archive of the session. -/
def Transaction.isArchive : Transaction → Bool
  | .archive _ _ _ _ => true
  | _ => false

/-- Whatever else happens to the system: an archive holds the lock of the thread itself. -/
def Site.Outside (site : Site) : Event → Prop
  | .call transaction =>
    transaction.isOfGraph = false ∧ (transaction.isArchive = true → site.holder = none)
  | _ => True

instance (site : Site) (event : Event) : Decidable (site.Outside event) :=
  match event with
  | .call _ => inferInstanceAs (Decidable (_ ∧ (_ → site.holder = none)))
  | .runnerClaim _ _ | .runnerStep _ _ _ _ | .runnerRaise _ | .runnerCrash _ => .isTrue trivial

inductive SiteEvent where
  | outside (event : Event)
  | open_ (runId : Nat)
  | holder (action : TurnAction)
  | lost (index : Nat) (action : TurnAction)
  | disconnect
  | forget

/-- The site with the process that holds the lock at another place, or without it. -/
def Site.placed (site : Site) (process : GraphProcess) (position : Option Position) : Site :=
  { site with holder := position.map fun position => { process with position } }

/-- The processes without a connection, one of them at another place, or gone. -/
def replaceLost (lost : List GraphProcess) (index : Nat) (process : GraphProcess) :
    Option Position → List GraphProcess
  | some position => lost.set index { process with position }
  | none => lost.eraseIdx index

section

variable [Platform]

/-- The site after an event that can happen. -/
def Site.react (site : Site) : SiteEvent → Option Site
  | .outside event => do
    guard (Timely site.world.clock event.readings ∧ event.Allowed ∧ site.Outside event)
    pure { site with world := site.world.next event }
  | .open_ runId => do
    guard (site.holder = none)
    let run ← site.world.db.inputs.get runId
    let stored ← site.world.db.tasks.get run.taskId
    guard (site.world.db.session.archivedAt = none ∧ stored.val.status ≠ .succeeded)
    pure { site with holder := some { run } }
  | .holder action => do
    let process ← site.holder
    let (moved, position) ← process.act site true action
    pure (moved.placed process position)
  | .lost index action => do
    let process ← site.lost[index]?
    let (moved, position) ← process.act site false action
    pure { moved with lost := replaceLost site.lost index process position }
  | .disconnect => do
    let process ← site.holder
    pure { site with holder := none, lost := process :: site.lost }
  | .forget => do
    guard (site.world.db.session.archivedAt ≠ none ∧ site.holder = none)
    pure { site with thread := {} }

def Site.Step (before : Site) (event : SiteEvent) (after : Site) : Prop :=
  before.react event = some after

end

/-- A session as it begins, with a thread that was never run. -/
def Site.Initial (site : Site) : Prop := World.Initial site.world ∧ site = { world := site.world }

end Negotiation
