/-
This file follows the calls of the model through their transactions. The model
is asked outside of every transaction, so that the process of a call can lose
its run, fail or die between the reservation of the call and its acceptance,
while other processes make calls of their own. Whatever they do, the ledger
keeps every reservation, and each step of a run has one accepted result at
most.
-/

import SecondhandAgent.Fencing

namespace Negotiation

open Store

/-! ### Calls and their processes -/

/-- How far the process of a call is after its reservation. -/
inductive CallProgress where
  /-- The model has been asked. -/
  | asked
  | answered (value : Json) (tokens cost : Option Int)
  /-- An exception is being handled, with the usage that it carries. -/
  | failed (tokens cost : Option Int)
  /-- The acceptance found that the run has another owner. -/
  | late (tokens cost : Option Int)
deriving DecidableEq

/-- A call whose process is alive, with the arguments that it was made with. -/
structure ModelCall where
  attemptId : Nat
  runId : Nat
  owner : Owner
  step : String
  progress : CallProgress := .asked
deriving DecidableEq

/-- What the process of a call does next, or what happens to it. -/
inductive CallWork where
  /-- The model answers; a value that is not an object is no result. -/
  | answer (structured : Bool) (value : Json) (tokens cost : Option Int)
  | fail (tokens cost : Option Int)
  | accept (now : Time)
  | settle
  | crash

/-- The transaction that the work consists of, if it is the next one of the call. -/
def ModelCall.transaction (call : ModelCall) (work : CallWork) : Option Transaction :=
  match work, call.progress with
  | .accept now, .answered value tokens cost =>
    some (.acceptCall call.runId call.owner call.attemptId value tokens cost now)
  | .settle, .failed tokens cost => some (.settleCall call.attemptId .unknown tokens cost)
  | .settle, .late tokens cost => some (.settleCall call.attemptId .stale tokens cost)
  | _, _ => none

/-- The usage is not negative where it is known. -/
def ValidUsage (tokens cost : Option Int) : Prop :=
  (∀ used ∈ tokens, 0 ≤ used) ∧ ∀ spent ∈ cost, 0 ≤ spent

instance (tokens cost : Option Int) : Decidable (ValidUsage tokens cost) :=
  inferInstanceAs (Decidable (_ ∧ _))

variable [Platform]

/-- How far the call is after the work; nothing when it is over. -/
def ModelCall.advance (db : Db) (call : ModelCall) (work : CallWork) : Option CallProgress :=
  match work, call.progress with
  | .answer structured value tokens cost, .asked =>
    if structured ∧ ValidUsage tokens cost then some (.answered value tokens cost)
    else some (.failed none none)
  | .fail tokens cost, .asked => some (.failed tokens cost)
  | .accept now, .answered value tokens cost =>
    match acceptCall db call.runId call.owner call.attemptId value tokens cost now with
    | .error (.staleOwner _) => some (.late tokens cost)
    | _ => none
  | .settle, .failed _ _ | .settle, .late _ _ | .crash, _ => none
  | _, progress => some progress

/-! ### The system with its calls -/

/-- The system and the calls whose processes are alive. -/
structure Calls where
  world : World
  alive : Table ModelCall.attemptId

/-- A call begins, its process goes on, or something else happens in the system. -/
inductive CallEvent where
  | reserve (runId : Nat) (owner : Owner) (step : String) (reservedTokens : Int)
      (reservedCost : Option Int) (checked timed : Time)
  | work (attemptId : Nat) (work : CallWork)
  | other (event : Event)

/-- An event that makes no transaction of a call. -/
def Event.SparesCalls : Event → Prop
  | .call transaction => ¬ transaction.OfCall
  | _ => True

/-- An event that makes a transaction of a call only as the call makes it. -/
def CallEvent.SparesCalls : CallEvent → Prop
  | .other event => event.SparesCalls
  | _ => True

namespace Calls

/-- What happens in the system when the event does. -/
def event (calls : Calls) : CallEvent → Option Event
  | .reserve runId owner step reservedTokens reservedCost checked timed =>
    some (.call (.reserveCall runId owner step reservedTokens reservedCost checked timed))
  | .work attemptId work =>
    (calls.alive.get attemptId).bind fun call => (call.transaction work).map .call
  | .other event => some event

/-- A reservation that is admitted leaves a call behind. -/
def begins (calls : Calls) (runId : Nat) (owner : Owner) (step : String) :
    Except Failure (Db × Reservation) → Table ModelCall.attemptId
  | .ok (_, .attempt attemptId) => calls.alive.insertIgnore { attemptId, runId, owner, step }
  | _ => calls.alive

/-- The call after a piece of work. -/
def continues (calls : Calls) (call : ModelCall) :
    Option CallProgress → Table ModelCall.attemptId
  | none => calls.alive.remove call.attemptId
  | some progress => calls.alive.put { call with progress }

/-- The calls that are alive after the event. -/
def survivors (calls : Calls) : CallEvent → Table ModelCall.attemptId
  | .reserve runId owner step reservedTokens reservedCost checked timed =>
    calls.begins runId owner step
      (reserveCall calls.world.db runId owner step reservedTokens reservedCost checked timed)
  | .work attemptId work =>
    match calls.alive.get attemptId with
    | none => calls.alive
    | some call => calls.continues call (call.advance calls.world.db work)
  | .other _ => calls.alive

/-- The system and its calls after the event. -/
def next (calls : Calls) (happened : CallEvent) : Calls where
  world := ((calls.event happened).map calls.world.next).getD calls.world
  alive := calls.survivors happened

/-- The step relation of the system with its calls. -/
def Step (before : Calls) (happened : CallEvent) (after : Calls) : Prop :=
  (∀ event ∈ before.event happened, Timely before.world.clock event.readings ∧ event.Allowed) ∧
    happened.SparesCalls ∧ after = before.next happened

omit [Platform] in
/-- A session as its enrolment leaves it, in which no call was made. -/
def Initial (calls : Calls) : Prop := World.Initial calls.world ∧ calls.alive = .empty

end Calls

/-! ### The transactions of a call -/

section

variable {db after : Db} {runId attemptId : Nat} {owner : Owner} {step : String}
variable {reservedTokens : Int} {reservedCost : Option Int} {checked timed now : Time}

/-- What is no transaction of a call leaves the ledger alone. -/
theorem perform_ledger {transaction : Transaction} (other : ¬ transaction.OfCall)
    (done : db.perform transaction = .ok after) : after.ledger = db.ledger := by
  cases perform_effect done with
  | business _ writes => rw [writes.frame]
  | repeated same => rw [same]
  | command _ writes => rw [writes.frame, writes.business.frame]
  | answered _ writes => rw [writes.frame, writes.drafts]
  | planned _ _ _ writes frame => rw [frame, writes]
  | published _ writes => rw [writes.frame]
  | displayed _ _ _ _ _ _ frame => rw [frame]
  | edited _ writes => rw [writes]
  | executed _ _ calls => exact calls.resolve_left other
  | acknowledged _ frame =>
    rw [frame, acknowledgeEvents_writes]
  | queued effect =>
    cases effect with
    | idle frame => rw [frame]
    | enqueued _ _ _ _ appended =>
      unfold newInput at appended
      simp only [bind_eq_ok, pure_eq_ok] at appended
      obtain ⟨_, _, _, _, _, _, rfl⟩ := appended
      rfl
    | turned _ _ _ _ frame => rw [frame]
  | archived frame => rw [frame]

/-- The row of an attempt as its reservation leaves it. -/
def reservedRow (db : Db) (run : NegotiationInput) (owner : Owner) (step : String)
    (reservedTokens : Int) (reservedCost : Option Int) : ModelCallLedger where
  id := db.nextId
  inputId := run.id
  stepKey := stepKey run step
  ownershipEpoch := owner.2
  status := .reserved
  reservedTokens
  reservedCost

/-- An attempt is admitted under the next key to the owner of a run, for a step without an
accepted result and within the caps of the run. -/
structure Admission (db : Db) (run : NegotiationInput) (owner : Owner) (step : String)
    (reservedTokens : Int) (reservedCost : Option Int) (checked : Time) (after : Db) :
    Prop where
  owned : ∃ task, lockOwner db run.id owner checked = .ok (run, task)
  positive : 0 < reservedTokens
  notNegative : ∀ cost ∈ reservedCost, 0 ≤ cost
  first : ∀ call ∈ db.ledger, call.acceptedKey ≠ some (stepKey run step)
  calls : ((callsOf db run.id).length : Int) < run.config.maxCalls
  tokens : ((callsOf db run.id).map (·.tokens)).sum + reservedTokens ≤ run.config.maxTokens
  cost : WithinCost (callsOf db run.id) reservedCost run.config.maxCost
  free : db.ledger.get db.nextId = none
  frame : after =
    { db with
      ledger := db.ledger.insertIgnore
        (reservedRow db run owner step reservedTokens reservedCost)
      nextId := db.nextId + 1 }

/-- What a reservation that is answered with an attempt does. -/
theorem reserveCall_attempt
    (done : reserveCall db runId owner step reservedTokens reservedCost checked timed =
      .ok (after, .attempt attemptId)) :
    attemptId = db.nextId ∧ ∃ run, run.id = runId ∧
      Admission db run owner step reservedTokens reservedCost checked after := by
  unfold reserveCall at done
  simp only [bind_eq_ok, require_eq_ok, Prod.exists] at done
  obtain ⟨_, ⟨positive, notNegative⟩, run, task, owned, _, _, rest⟩ := done
  obtain rfl : run.id = runId := Table.key_of_get (lockOwner_eq_ok.mp owned).1
  split at rest
  · simp only [bind_eq_ok, pure_eq_ok] at rest
    obtain ⟨_, _, same⟩ := rest
    cases (Prod.mk.inj same).2
  · next absent =>
    unfold admitCall at rest
    simp only [bind_eq_ok, pure_eq_ok, require_eq_ok] at rest
    obtain ⟨_, _, _, ⟨calls, tokens, cost⟩, ledger, added, same⟩ := rest
    obtain ⟨frame, named⟩ := Prod.mk.inj same
    refine ⟨(Reservation.attempt.inj named).symm, run, rfl, ?_⟩
    exact
      { owned := ⟨task, owned⟩
        positive, notNegative, calls, tokens, cost
        first := fun call member => by
          simpa using List.find?_eq_none.mp absent call member
        free := Table.free_of_insert added
        frame := by rw [← frame, Table.eq_insertIgnore added]; rfl }

/-- What a reservation that is answered with an earlier artifact does. -/
theorem reserveCall_replay {reference : Reference}
    (done : reserveCall db runId owner step reservedTokens reservedCost checked timed =
      .ok (after, .replay reference)) :
    after = db ∧ ∃ run call, db.inputs.get runId = some run ∧ call ∈ db.ledger ∧
      call.acceptedKey = some (stepKey run step) ∧ reference = ⟨call.id, call.valueHash⟩ := by
  unfold reserveCall at done
  simp only [bind_eq_ok, require_eq_ok, Prod.exists] at done
  obtain ⟨_, _, run, task, owned, _, _, rest⟩ := done
  split at rest
  · next call found =>
    simp only [bind_eq_ok, pure_eq_ok] at rest
    obtain ⟨_, _, same⟩ := rest
    obtain ⟨rfl, named⟩ := Prod.mk.inj same
    refine ⟨rfl, run, call, (lockOwner_eq_ok.mp owned).1, List.mem_of_find?_eq_some found, ?_,
      (Reservation.replay.inj named).symm⟩
    simpa using List.find?_some found
  · unfold admitCall at rest
    simp only [bind_eq_ok, pure_eq_ok] at rest
    obtain ⟨_, _, _, _, _, _, same⟩ := rest
    cases (Prod.mk.inj same).2

/-- The row of an attempt with the result that is accepted. -/
def acceptedRow (attempt : ModelCallLedger) (value : Json) (tokens cost : Option Int) :
    ModelCallLedger :=
  { attempt with
    value := some value
    valueHash := some (digest value)
    actualTokens := tokens
    actualCost := cost
    acceptedKey := some attempt.stepKey
    status := .accepted }

theorem acceptCall_done {value : Json} {tokens cost : Option Int}
    (done : acceptCall db runId owner attemptId value tokens cost now = .ok after) :
    ∃ attempt, Passes db runId owner now ∧ db.ledger.get attemptId = some attempt ∧
      (∀ other ∈ db.ledger, other.id ≠ attemptId → other.acceptedKey ≠ some attempt.stepKey) ∧
      after = { db with ledger := db.ledger.put (acceptedRow attempt value tokens cost) } := by
  unfold acceptCall at done
  simp only [bind_eq_ok, pure_eq_ok, require_eq_ok, expect_eq_ok, Prod.exists] at done
  obtain ⟨run, task, owned, attempt, found, _, single, rfl⟩ := done
  exact ⟨attempt, ⟨run, task, owned⟩, found, single, rfl⟩

omit [Platform] in
theorem settleCall_done {status : CallStatus} {tokens cost : Option Int}
    (done : settleCall db attemptId status tokens cost = .ok after) :
    ∃ attempt, db.ledger.get attemptId = some attempt ∧
      after = { db with
        ledger := db.ledger.put
          { attempt with status, actualTokens := tokens, actualCost := cost } } := by
  unfold settleCall at done
  simp only [bind_eq_ok, pure_eq_ok, expect_eq_ok] at done
  obtain ⟨attempt, found, rfl⟩ := done
  exact ⟨attempt, found, rfl⟩

end

/-! ### Every step -/

section

variable {before after calls : Calls} {happened : CallEvent}

theorem World.next_done {world : World} {transaction : Transaction} {db : Db}
    (done : world.db.perform transaction = .ok db) : (world.next (.call transaction)).db = db := by
  show (world.settleTransaction transaction).db = db
  unfold World.settleTransaction
  rw [done]

theorem World.next_failed {world : World} {transaction : Transaction} {failure : Failure}
    (failed : world.db.perform transaction = .error failure) :
    (world.next (.call transaction)).db = world.db := by
  show (world.settleTransaction transaction).db = world.db
  unfold World.settleTransaction
  rw [failed]

/-- A step of the calls is a step of the system, or the system is left alone. -/
theorem Calls.Step.world (step : Calls.Step before happened after) :
    after.world = before.world ∨
      ∃ event, before.event happened = some event ∧
        World.Step before.world event after.world := by
  obtain ⟨takes, _, rfl⟩ := step
  cases event : before.event happened with
  | none =>
    refine .inl ?_
    show ((before.event happened).map before.world.next).getD before.world = before.world
    rw [event]
    rfl
  | some event_ =>
    obtain ⟨timely, allowed⟩ := takes event_ event
    refine .inr ⟨event_, rfl, timely, allowed, ?_⟩
    show ((before.event happened).map before.world.next).getD before.world = _
    rw [event]
    rfl

theorem reachable_world (reached : Reachable Calls.Step Calls.Initial calls) :
    Reachable World.Step World.Initial calls.world := by
  refine reached.invariant (fun calls => Reachable World.Step World.Initial calls.world)
    (fun calls initial => .start initial.1) fun before happened after reached step => ?_
  rcases step.world with same | ⟨event, _, taken⟩
  · rw [same]
    exact reached
  · exact reached.next taken

omit [Platform] in
/-- The usage that a call was answered with has been checked. -/
def CallProgress.Sound : CallProgress → Prop
  | .answered _ tokens cost | .late tokens cost => ValidUsage tokens cost
  | .asked | .failed _ _ => True

/-- What a step does to the ledger and to the calls that are alive. -/
inductive CallMove (before : Calls) (happened : CallEvent) (after : Calls) : Prop
  /-- Nothing is written, and the calls go on or are over. -/
  | idle (ledger : after.world.db.ledger = before.world.db.ledger)
      (alive : ∀ call ∈ after.alive, call ∈ before.alive)
  /-- A call hears from the model, or that it is late. -/
  | heard {call : ModelCall} {progress : CallProgress}
      (found : before.alive.get call.attemptId = some call)
      (ledger : after.world.db.ledger = before.world.db.ledger)
      (alive : after.alive = before.alive.put { call with progress })
      (waits : progress ≠ .asked)
      (sound : call.progress.Sound → progress.Sound)
      (answer : ∀ value tokens cost, progress = .answered value tokens cost →
        call.progress = .asked ∧
          happened = .work call.attemptId (.answer true value tokens cost))
  | admitted {run : NegotiationInput} {owner : Owner} {step : String} {reservedTokens : Int}
      {reservedCost : Option Int} {checked timed : Time}
      (made : happened = .reserve run.id owner step reservedTokens reservedCost checked timed)
      (timely : before.world.clock ≤ checked)
      (admission : Admission before.world.db run owner step reservedTokens reservedCost checked
        after.world.db)
      (alive : after.alive = before.alive.insertIgnore
        { attemptId := before.world.db.nextId, runId := run.id, owner, step })
  | accepted {call : ModelCall} {value : Json} {tokens cost : Option Int} {now : Time}
      {attempt : ModelCallLedger} (found : before.alive.get call.attemptId = some call)
      (answered : call.progress = .answered value tokens cost)
      (timely : before.world.clock ≤ now)
      (passes : Passes before.world.db call.runId call.owner now)
      (held : before.world.db.ledger.get call.attemptId = some attempt)
      (single : ∀ other ∈ before.world.db.ledger, other.id ≠ call.attemptId →
        other.acceptedKey ≠ some attempt.stepKey)
      (frame : after.world.db =
        { before.world.db with
          ledger := before.world.db.ledger.put (acceptedRow attempt value tokens cost) })
      (alive : after.alive = before.alive.remove call.attemptId)
  | settled {call : ModelCall} {status : CallStatus} {tokens cost : Option Int}
      {attempt : ModelCallLedger} (found : before.alive.get call.attemptId = some call)
      (made : happened = .work call.attemptId .settle)
      (ended : (call.progress = .failed tokens cost ∧ status = .unknown) ∨
        (call.progress = .late tokens cost ∧ status = .stale))
      (held : before.world.db.ledger.get call.attemptId = some attempt)
      (frame : after.world.db =
        { before.world.db with
          ledger := before.world.db.ledger.put
            { attempt with status, actualTokens := tokens, actualCost := cost } })
      (alive : after.alive = before.alive.remove call.attemptId)

/-- A step of the rest of the system leaves the ledger alone. -/
theorem World.Step.ledger {before after : World} {event : Event}
    (step : World.Step before event after) (spares : event.SparesCalls) :
    after.db.ledger = before.db.ledger := by
  rcases step.performs with same | ⟨transaction, done, source, _⟩
  · rw [same]
  refine perform_ledger ?_ done
  rcases source with rfl | runner
  · exact spares
  · cases transaction with
    | reserveCall | acceptCall | settleCall => exact absurd runner id
    | _ => exact id

/-- What the first transaction of a call does. -/
theorem reserve_move {runId : Nat} {owner : Owner} {step : String} {reservedTokens : Int}
    {reservedCost : Option Int} {checked timed : Time} (timely : before.world.clock ≤ checked) :
    CallMove before (.reserve runId owner step reservedTokens reservedCost checked timed)
      (before.next (.reserve runId owner step reservedTokens reservedCost checked timed)) := by
  let after := before.next (.reserve runId owner step reservedTokens reservedCost checked timed)
  have alive : after.alive = before.begins runId owner step
    (reserveCall before.world.db runId owner step reservedTokens reservedCost checked timed) := rfl
  cases result : reserveCall before.world.db runId owner step reservedTokens reservedCost
      checked timed with
  | error failure =>
    have failed : before.world.db.perform (.reserveCall runId owner step reservedTokens
        reservedCost checked timed) = .error failure := by
      show (reserveCall before.world.db runId owner step _ _ _ _).map (·.1) = _
      rw [result]
      rfl
    refine .idle (congrArg Db.ledger (World.next_failed failed)) fun call member => ?_
    rw [alive, result] at member
    exact member
  | ok answer =>
    obtain ⟨db, reservation⟩ := answer
    have done : before.world.db.perform (.reserveCall runId owner step reservedTokens
        reservedCost checked timed) = .ok db := by
      show (reserveCall before.world.db runId owner step _ _ _ _).map (·.1) = _
      rw [result]
      rfl
    have written : after.world.db = db := World.next_done done
    rw [result] at alive
    cases reservation with
    | replay reference =>
      obtain ⟨rfl, _⟩ := reserveCall_replay result
      refine .idle (congrArg Db.ledger written) fun call member => ?_
      rw [alive] at member
      exact member
    | attempt attemptId =>
      obtain ⟨rfl, run, rfl, admission⟩ := reserveCall_attempt result
      exact .admitted rfl timely (written ▸ admission) alive

section

variable {call : ModelCall} {work : CallWork}

/-- The calls after a piece of work on one of them. -/
theorem work_alive (found : before.alive.get call.attemptId = some call) :
    (before.next (.work call.attemptId work)).alive =
      before.continues call (call.advance before.world.db work) := by
  show (match before.alive.get call.attemptId with
    | none => before.alive
    | some call => before.continues call (call.advance before.world.db work)) = _
  rw [found]

/-- The system after a piece of work on a call. -/
theorem work_world (found : before.alive.get call.attemptId = some call) :
    (before.next (.work call.attemptId work)).world =
      (((call.transaction work).map .call).map before.world.next).getD before.world := by
  show (((before.alive.get call.attemptId).bind fun call =>
    (call.transaction work).map .call).map before.world.next).getD before.world = _
  rw [found]
  rfl

theorem work_written {transaction : Transaction} {db : Db}
    (found : before.alive.get call.attemptId = some call)
    (made : call.transaction work = some transaction)
    (done : before.world.db.perform transaction = .ok db) :
    (before.next (.work call.attemptId work)).world.db = db := by
  rw [work_world found, made]
  exact World.next_done done

/-- Work without a transaction that succeeds writes nothing. -/
theorem work_unwritten (found : before.alive.get call.attemptId = some call)
    (failed : ∀ transaction ∈ call.transaction work,
      ∃ failure, before.world.db.perform transaction = .error failure) :
    (before.next (.work call.attemptId work)).world.db.ledger = before.world.db.ledger := by
  rw [work_world found]
  cases made : call.transaction work with
  | none => rfl
  | some transaction =>
    obtain ⟨failure, failed⟩ := failed transaction made
    exact congrArg Db.ledger (World.next_failed failed)

theorem work_spares (idle : call.transaction work = none) :
    ∀ transaction ∈ call.transaction work,
      ∃ failure, before.world.db.perform transaction = .error failure := by
  rw [idle]
  exact fun transaction member => absurd member (Option.not_mem_none transaction)

/-- Work that is not the next of the call changes nothing. -/
theorem work_waits (found : before.alive.get call.attemptId = some call)
    (idle : call.transaction work = none)
    (same : call.advance before.world.db work = some call.progress) :
    CallMove before (.work call.attemptId work)
      (before.next (.work call.attemptId work)) := by
  refine .idle (work_unwritten found (work_spares idle)) fun other member => ?_
  have kept : before.alive.put { call with progress := call.progress } = before.alive :=
    Table.put_of_mem (Table.mem_of_get found)
  rw [work_alive found, same] at member
  exact kept ▸ member

/-- Work after which a call is over without a trace. -/
theorem work_drops (found : before.alive.get call.attemptId = some call)
    (failed : ∀ transaction ∈ call.transaction work,
      ∃ failure, before.world.db.perform transaction = .error failure)
    (gone : call.advance before.world.db work = none) :
    CallMove before (.work call.attemptId work)
      (before.next (.work call.attemptId work)) := by
  refine .idle (work_unwritten found failed) fun other member => ?_
  rw [work_alive found, gone] at member
  exact (Table.mem_remove.mp member).1

/-- The model answers a call that waits for it, or fails. -/
theorem hear_move {progress : CallProgress}
    (found : before.alive.get call.attemptId = some call)
    (idle : call.transaction work = none)
    (next : call.advance before.world.db work = some progress) (heard : progress ≠ .asked)
    (sound : progress.Sound)
    (answer : ∀ value tokens cost, progress = .answered value tokens cost →
      call.progress = .asked ∧ work = .answer true value tokens cost) :
    CallMove before (.work call.attemptId work)
      (before.next (.work call.attemptId work)) := by
  refine .heard found (work_unwritten found (work_spares idle)) ?_ heard
    (fun _ => sound) fun value tokens cost answered => ?_
  · rw [work_alive found, next]
    rfl
  · obtain ⟨asked, rfl⟩ := answer value tokens cost answered
    exact ⟨asked, rfl⟩

/-- The last transaction of an answered call accepts its result, finds that the call is late or
fails otherwise. -/
theorem accept_move {value : Json} {tokens cost : Option Int} {now : Time}
    (found : before.alive.get call.attemptId = some call)
    (answered : call.progress = .answered value tokens cost)
    (timely : before.world.clock ≤ now) :
    CallMove before (.work call.attemptId (.accept now))
      (before.next (.work call.attemptId (.accept now))) := by
  have made : call.transaction (.accept now) = some
      (.acceptCall call.runId call.owner call.attemptId value tokens cost now) := by
    unfold ModelCall.transaction
    rw [answered]
  have advance : call.advance before.world.db (.accept now) =
      match acceptCall before.world.db call.runId call.owner call.attemptId value tokens cost
        now with
      | .error (.staleOwner _) => some (.late tokens cost)
      | _ => none := by
    unfold ModelCall.advance
    rw [answered]
  cases result : acceptCall before.world.db call.runId call.owner call.attemptId value tokens
      cost now with
  | ok db =>
    obtain ⟨attempt, passes, held, single, frame⟩ := acceptCall_done result
    rw [result] at advance
    refine .accepted found answered timely passes held single
      ((work_written found made result).trans frame) ?_
    rw [work_alive found, advance]
    rfl
  | error failure =>
    have failed : ∀ transaction ∈ call.transaction (.accept now),
        ∃ failure, before.world.db.perform transaction = .error failure := by
      intro transaction next
      obtain rfl := Option.some.inj (made.symm.trans next)
      exact ⟨failure, result⟩
    rw [result] at advance
    cases failure with
    | staleOwner text =>
      have late : call.advance before.world.db (.accept now) = some (.late tokens cost) := advance
      have alive : (before.next (.work call.attemptId (.accept now))).alive =
          before.alive.put { call with progress := .late tokens cost } := by
        rw [work_alive found, late]
        rfl
      refine .heard found (work_unwritten found failed) alive nofun (fun sound => ?_) nofun
      rw [answered] at sound
      exact sound
    | _ => exact work_drops found failed advance

/-- The last transaction of a call that failed or was late. -/
theorem settle_move {status : CallStatus} {tokens cost : Option Int}
    (found : before.alive.get call.attemptId = some call)
    (ended : (call.progress = .failed tokens cost ∧ status = .unknown) ∨
      (call.progress = .late tokens cost ∧ status = .stale)) :
    CallMove before (.work call.attemptId .settle)
      (before.next (.work call.attemptId .settle)) := by
  have made : call.transaction .settle =
      some (.settleCall call.attemptId status tokens cost) := by
    unfold ModelCall.transaction
    rcases ended with ⟨progress, rfl⟩ | ⟨progress, rfl⟩ <;> rw [progress]
  have advance : call.advance before.world.db .settle = none := by
    unfold ModelCall.advance
    rcases ended with ⟨progress, _⟩ | ⟨progress, _⟩ <;> rw [progress]
  cases result : settleCall before.world.db call.attemptId status tokens cost with
  | ok db =>
    obtain ⟨attempt, held, frame⟩ := settleCall_done result
    refine .settled found rfl ended held ((work_written found made result).trans frame) ?_
    rw [work_alive found, advance]
    rfl
  | error failure =>
    refine work_drops found (fun transaction next => ⟨failure, ?_⟩) advance
    obtain rfl := Option.some.inj (made.symm.trans next)
    exact result

/-- What a piece of work on a call does. -/
theorem work_move (found : before.alive.get call.attemptId = some call)
    (takes : ∀ transaction ∈ call.transaction work,
      Timely before.world.clock transaction.readings) :
    CallMove before (.work call.attemptId work)
      (before.next (.work call.attemptId work)) := by
  cases work with
  | crash => exact work_drops found (work_spares rfl) rfl
  | answer structured value tokens cost =>
    cases progress : call.progress with
    | asked =>
      have advance : call.advance before.world.db (.answer structured value tokens cost) =
          if structured ∧ ValidUsage tokens cost then some (.answered value tokens cost)
          else some (.failed none none) := by
        unfold ModelCall.advance
        rw [progress]
      split at advance
      · next valid =>
        obtain ⟨rfl, valid⟩ := valid
        refine hear_move found rfl advance nofun valid ?_
        rintro _ _ _ ⟨⟩
        exact ⟨progress, rfl⟩
      · exact hear_move found rfl advance nofun trivial nofun
    | _ => exact work_waits found rfl (by unfold ModelCall.advance; rw [progress])
  | fail tokens cost =>
    cases progress : call.progress with
    | asked =>
      have advance : call.advance before.world.db (.fail tokens cost) =
          some (.failed tokens cost) := by
        unfold ModelCall.advance
        rw [progress]
      exact hear_move found rfl advance nofun trivial nofun
    | _ => exact work_waits found rfl (by unfold ModelCall.advance; rw [progress])
  | accept now =>
    cases progress : call.progress with
    | answered value tokens cost =>
      refine accept_move found progress (takes (.acceptCall call.runId call.owner call.attemptId
        value tokens cost now) ?_).1
      unfold ModelCall.transaction
      rw [progress]
      rfl
    | _ =>
      exact work_waits found (by unfold ModelCall.transaction; rw [progress])
        (by unfold ModelCall.advance; rw [progress])
  | settle =>
    cases progress : call.progress with
    | failed tokens cost => exact settle_move found (.inl ⟨progress, rfl⟩)
    | late tokens cost => exact settle_move found (.inr ⟨progress, rfl⟩)
    | _ =>
      exact work_waits found (by unfold ModelCall.transaction; rw [progress])
        (by unfold ModelCall.advance; rw [progress])

end

/-- What a step of the calls does. -/
theorem Calls.Step.move (step : Calls.Step before happened after) :
    CallMove before happened after := by
  have system := step.world
  obtain ⟨takes, spares, rfl⟩ := step
  cases happened with
  | other event =>
    refine .idle ?_ fun call member => member
    rcases system with same | ⟨_, named, taken⟩
    · rw [same]
    · obtain rfl := Option.some.inj named
      exact taken.ledger spares
  | reserve runId owner step reservedTokens reservedCost checked timed =>
    have timely : Timely before.world.clock [checked, timed] := (takes _ rfl).1
    exact reserve_move timely.1
  | work attemptId work =>
    cases found : before.alive.get attemptId with
    | none =>
      refine .idle ?_ fun call member => ?_
      · unfold Calls.next Calls.event
        simp only [found]
        rfl
      · unfold Calls.next Calls.survivors at member
        simp only [found] at member
        exact member
    | some call =>
      obtain rfl : call.attemptId = attemptId := Table.key_of_get found
      refine work_move found fun transaction next => (takes (.call transaction) ?_).1
      show ((before.alive.get call.attemptId).bind fun call =>
        (call.transaction work).map Event.call) = some (.call transaction)
      rw [found, Option.bind_some, Option.mem_def.mp next]
      rfl

end

/-! ### Lists of events -/

omit [Platform] in
instance (event : Event) : Decidable event.SparesCalls :=
  match event with
  | .call transaction => inferInstanceAs (Decidable ¬ transaction.OfCall)
  | .runnerClaim _ _ | .runnerStep _ _ _ _ | .runnerRaise _ | .runnerCrash _ => .isTrue trivial

omit [Platform] in
instance (happened : CallEvent) : Decidable happened.SparesCalls :=
  match happened with
  | .other event => inferInstanceAs (Decidable event.SparesCalls)
  | .reserve _ _ _ _ _ _ _ | .work _ _ => .isTrue trivial

namespace Calls

/-- The events can happen one after the other. -/
def Scheduled (calls : Calls) : List CallEvent → Prop
  | [] => True
  | happened :: rest =>
    ((∀ event ∈ calls.event happened, Timely calls.world.clock event.readings ∧ event.Allowed) ∧
      happened.SparesCalls) ∧ Scheduled (calls.next happened) rest

instance decidableScheduled (calls : Calls) : (events : List CallEvent) →
    Decidable (calls.Scheduled events)
  | [] => inferInstanceAs (Decidable True)
  | happened :: rest =>
    haveI := decidableScheduled (calls.next happened) rest
    inferInstanceAs (Decidable ((_ ∧ _) ∧ _))

/-- The system and its calls after the events, oldest event first. -/
def after (calls : Calls) (events : List CallEvent) : Calls := events.foldl Calls.next calls

/-- The transitions the events make after those of `past`, newest transition first. -/
def history (calls : Calls) (past : List (Transition Calls CallEvent)) :
    List CallEvent → List (Transition Calls CallEvent)
  | [] => past
  | happened :: rest =>
    (calls.next happened).history (⟨calls, happened, calls.next happened⟩ :: past) rest

/-- Scheduled events go on with a run. -/
theorem run_history {first calls : Calls} {past : List (Transition Calls CallEvent)}
    {events : List CallEvent} (run : Run Calls.Step first past calls)
    (scheduled : calls.Scheduled events) :
    Run Calls.Step first (calls.history past events) (calls.after events) := by
  induction events generalizing calls past with
  | nil => exact run
  | cons happened rest inductionHypothesis =>
    obtain ⟨⟨takes, spares⟩, later⟩ := scheduled
    have taken : Calls.Step calls happened (calls.next happened) := ⟨takes, spares, rfl⟩
    exact inductionHypothesis (run.next taken) later

/-- The transitions of a list of events are made by its events. -/
theorem event_of_history {calls : Calls} {past : List (Transition Calls CallEvent)}
    {events : List CallEvent} {transition : Transition Calls CallEvent}
    (member : transition ∈ calls.history past events) :
    transition ∈ past ∨ transition.event ∈ events := by
  induction events generalizing calls past with
  | nil => exact .inl member
  | cons happened rest inductionHypothesis =>
    rcases inductionHypothesis member with old | later
    · rcases List.mem_cons.mp old with rfl | older
      · exact .inr List.mem_cons_self
      · exact .inl older
    · exact .inr (List.mem_cons_of_mem _ later)

end Calls

/-! ### A session whose replies are reviewed -/

omit [Platform] in
/-- The session in which the buyer writes freely, with the graph that asks the model most. -/
def reviewedDb : Db :=
  { semanticDb with session := { buyerId := "buyer", graphVersion := .negotiationV3 } }

omit [Platform] in
def reviewedCalls : Calls where
  world := { semanticWorld with db := reviewedDb }
  alive := .empty

omit [Platform] in
theorem reviewedCalls_initial : Calls.Initial reviewedCalls :=
  ⟨⟨⟨_, _, _, _, _, _, _, rfl⟩, fun _ => rfl, rfl,
    fun rule member => absurd member (Table.not_mem_empty rule)⟩, rfl⟩

omit [Platform] in
/-- The buyer writes, and the process of the input asks the model for its intents; the attempt
has the key 7. -/
def asking : List CallEvent :=
  (written "first" "还能便宜吗" 3 (seconds 1)).map .other ++
    [.reserve 3 (6, 1) "intents" 1000 none (seconds 1) (seconds 1)]

end Negotiation
