/-
This file proves that a step of a run has one accepted artifact. The first call
whose owner still holds the run is accepted, and from then on every call of the
step is answered with it and none goes to the model. An attempt whose owner
lost the run is never accepted, and a reference that was returned stands for the
value that the model answered for as long as the ledger is there.
-/

import SecondhandAgent.Budget

namespace Negotiation

open Store

section

variable [Platform] {before after calls first last : Calls} {happened : CallEvent}
variable {history : List (Transition Calls CallEvent)}

/-! ### The artifact of a step -/

/-- The call of a step returns a reference: an earlier one, or that of its accepted result. -/
inductive Calls.Returns (before : Calls) (runId : Nat) (step : String) (reference : Reference) :
    CallEvent → Prop
  | replayed {owner : Owner} {reservedTokens : Int} {reservedCost : Option Int}
      {checked timed : Time} {db : Db}
      (done : reserveCall before.world.db runId owner step reservedTokens reservedCost checked
        timed = .ok (db, .replay reference)) :
      Returns before runId step reference
        (.reserve runId owner step reservedTokens reservedCost checked timed)
  | accepted {call : ModelCall} {value : Json} {tokens cost : Option Int} {now : Time} {db : Db}
      (found : before.alive.get call.attemptId = some call) (run : call.runId = runId)
      (name : call.step = step) (answered : call.progress = .answered value tokens cost)
      (done : acceptCall before.world.db call.runId call.owner call.attemptId value tokens cost
        now = .ok db)
      (returned : reference = ⟨call.attemptId, some (digest value)⟩) :
      Returns before runId step reference (.work call.attemptId (.accept now))

/-- The model answers the attempt with the value. -/
def Answers (transition : Transition Calls CallEvent) (attemptId : Nat) (value : Json) : Prop :=
  ∃ call tokens cost, transition.before.alive.get attemptId = some call ∧
    call.progress = .asked ∧ transition.event = .work attemptId (.answer true value tokens cost)

/-- The reference of an accepted row is resolved to the value in the row. -/
theorem Ledgered.resolves {db : Db} {alive : Table ModelCall.attemptId} {row : ModelCallLedger}
    {input : NegotiationInput} {step : String} (ledgered : Ledgered db alive)
    (member : row ∈ db.ledger) (accepted : row.status = .accepted)
    (found : db.inputs.get input.id = some input) (same : row.stepKey = stepKey input step) :
    ∃ value, row.value = some value ∧
      resolve db input.id step ⟨row.id, row.valueHash⟩ = .ok value := by
  obtain ⟨keyed, value, stored, hashed⟩ := (ledgered.recorded row member).accepted accepted
  refine ⟨value, stored, ?_⟩
  unfold resolve
  simp only [bind_eq_ok, require_eq_ok, expect_eq_ok]
  exact ⟨input, found, row, Table.get_of_mem member, value, stored, (),
    ⟨by rw [keyed, same], accepted, rfl, hashed⟩, rfl⟩

/-! ### What is settled stays -/

/-- The owner of each call that is alive had its turn. -/
def Granted (calls : Calls) : Prop :=
  ∀ call ∈ calls.alive, call.owner.2 ≤ (calls.world.db.queue.leaseOf call.runId).epoch

/-- The lease of a run makes a move, and the clock does not go back. -/
theorem Calls.Step.lease (reached : Reachable Calls.Step Calls.Initial before)
    (step : Calls.Step before happened after) (runId : Nat) :
    Lease.Move before.world.clock (before.world.db.queue.leaseOf runId)
        (after.world.db.queue.leaseOf runId) ∧ before.world.clock ≤ after.world.clock := by
  rcases step.world with same | ⟨event, _, taken⟩
  · rw [same]
    exact ⟨.kept, le_rfl⟩
  · exact ⟨taken.lease (reachable_world reached) runId, taken.clock_le⟩

theorem Calls.Step.granted (reached : Reachable Calls.Step Calls.Initial before)
    (granted : Granted before) (step : Calls.Step before happened after) : Granted after := by
  have grown : ∀ call ∈ before.alive,
      call.owner.2 ≤ (after.world.db.queue.leaseOf call.runId).epoch := fun call goes =>
    (granted call goes).trans (step.lease reached call.runId).1.epoch_le
  intro call going
  cases step.move with
  | idle _ alive => exact grown call (alive call going)
  | @heard heard _ found _ alive =>
    rw [alive] at going
    rcases Table.mem_of_mem_put going with goes | rfl
    · exact grown call goes
    · exact grown heard (Table.mem_of_get found)
  | admitted _ _ admission alive =>
    rw [alive] at going
    rcases Table.mem_insertIgnore going with rfl | goes
    · obtain ⟨task, owned⟩ := admission.owned
      have passed := passes_iff.mp ⟨_, _, owned⟩
      exact passed.1.le.trans (step.lease reached _).1.epoch_le
    · exact grown call goes
  | accepted _ _ _ _ _ _ _ alive | settled _ _ _ _ _ alive =>
    rw [alive] at going
    exact grown call (Table.mem_remove.mp going).1

/-- An attempt that is lost: it is not accepted, and the owner whose process works on it is
shut out, if that process is still alive. -/
structure Lost (calls : Calls) (attemptId : Nat) : Prop where
  known : attemptId < calls.world.db.nextId
  unaccepted : ∀ row ∈ calls.world.db.ledger, row.id = attemptId → row.status ≠ .accepted
  out : ∀ call, calls.alive.get attemptId = some call →
    (calls.world.db.queue.leaseOf call.runId).Lapsed call.owner calls.world.clock

/-- An attempt that is lost stays lost. -/
theorem Calls.Step.lost {attemptId : Nat} (reached : Reachable Calls.Step Calls.Initial before)
    (lost : Lost before attemptId) (step : Calls.Step before happened after) :
    Lost after attemptId := by
  have known := lost.known.trans_le (step.supply_le reached)
  have out : ∀ call, before.alive.get attemptId = some call →
      (after.world.db.queue.leaseOf call.runId).Lapsed call.owner after.world.clock :=
    fun call found =>
      (lost.out call found).move (step.lease reached call.runId).1 (step.lease reached 0).2
  -- The calls that are left after one is over are calls that were alive.
  have removed : ∀ {gone : Nat} {call}, (before.alive.remove gone).get attemptId = some call →
      before.alive.get attemptId = some call := by
    intro gone call found
    obtain ⟨member, key⟩ := Table.get_eq_some.mp found
    exact Table.get_eq_some.mpr ⟨(Table.mem_remove.mp member).1, key⟩
  cases step.move with
  | idle ledger alive =>
    refine ⟨known, by rw [ledger]; exact lost.unaccepted, fun call found => out call ?_⟩
    obtain ⟨member, key⟩ := Table.get_eq_some.mp found
    exact Table.get_eq_some.mpr ⟨alive call member, key⟩
  | @heard heard progress found ledger alive =>
    refine ⟨known, by rw [ledger]; exact lost.unaccepted, fun call present => ?_⟩
    rw [alive] at present
    obtain ⟨member, key⟩ := Table.get_eq_some.mp present
    rcases Table.mem_of_mem_put member with goes | rfl
    · exact out call (Table.get_eq_some.mpr ⟨goes, key⟩)
    · exact out heard (key ▸ found)
  | admitted _ _ admission alive =>
    refine ⟨known, ?_, fun call present => ?_⟩
    · rw [admission.frame]
      intro row member same
      rcases Table.mem_insertIgnore member with rfl | old
      · exact nofun
      · exact lost.unaccepted row old same
    · rw [alive] at present
      obtain ⟨member, key⟩ := Table.get_eq_some.mp present
      rcases Table.mem_insertIgnore member with rfl | goes
      · exact absurd key lost.known.ne'
      · exact out call (Table.get_eq_some.mpr ⟨goes, key⟩)
  | @accepted call value tokens cost now attempt found answered timely passes held _ frame alive =>
    refine ⟨known, ?_, fun other present => out other (removed (alive ▸ present))⟩
    rw [frame]
    intro row member same
    rcases Table.mem_put.mp member with ⟨old, _⟩ | ⟨rfl, _⟩
    · exact lost.unaccepted row old same
    · -- Its own acceptance is refused, for its owner does not pass.
      obtain rfl : call.attemptId = attemptId := (Table.key_of_get held).symm.trans same
      exact absurd ((passes_iff.mp passes).earlier timely) (lost.out call found).out
  | @settled call status tokens cost attempt found _ ended _ frame alive =>
    refine ⟨known, ?_, fun other present => out other (removed (alive ▸ present))⟩
    rw [frame]
    intro row member same
    rcases Table.mem_put.mp member with ⟨old, _⟩ | ⟨rfl, _⟩
    · exact lost.unaccepted row old same
    · rcases ended with ⟨_, rfl⟩ | ⟨_, rfl⟩ <;> exact nofun

/-- What the accepted rows and the answered calls hold is what the model answered, and it
answers an attempt once. -/
structure Told (history : List (Transition Calls CallEvent)) (calls : Calls) : Prop where
  alive : ∀ call ∈ calls.alive, ∀ value tokens cost,
    call.progress = .answered value tokens cost →
      ∃ answer ∈ history, Answers answer call.attemptId value
  rows : ∀ row ∈ calls.world.db.ledger, row.status = .accepted →
    ∀ value, row.value = some value → ∃ answer ∈ history, Answers answer row.id value
  known : ∀ answer ∈ history, ∀ attemptId value, Answers answer attemptId value →
    attemptId < calls.world.db.nextId ∧
    (∀ call ∈ calls.alive, call.attemptId = attemptId → call.progress ≠ .asked ∧
      ∀ other tokens cost, call.progress = .answered other tokens cost → other = value) ∧
    ∀ row ∈ calls.world.db.ledger, row.id = attemptId → row.status = .accepted →
      row.value = some value

/-- The answer of the model is taken down with the call, unless it is no result. -/
theorem Calls.Step.hears {call : ModelCall} {structured : Bool} {value : Json}
    {tokens cost : Option Int}
    (step : Calls.Step before (.work call.attemptId (.answer structured value tokens cost)) after)
    (found : before.alive.get call.attemptId = some call) (asked : call.progress = .asked) :
    after.world = before.world ∧ ∃ progress, after.alive = before.alive.put { call with progress } ∧
      progress ≠ .asked ∧
      ∀ other spent paid, progress = .answered other spent paid → other = value := by
  obtain ⟨_, _, rfl⟩ := step
  refine ⟨work_world found, ?_⟩
  have advance : call.advance before.world.db (.answer structured value tokens cost) =
      if structured ∧ ValidUsage tokens cost then some (.answered value tokens cost)
      else some (.failed none none) := by
    unfold ModelCall.advance
    rw [asked]
  split at advance
  · refine ⟨.answered value tokens cost, ?_, nofun, ?_⟩
    · rw [work_alive found, advance]
      rfl
    · rintro _ _ _ ⟨⟩
      rfl
  · refine ⟨.failed none none, ?_, nofun, nofun⟩
    rw [work_alive found, advance]
    rfl

/-- What is there after a step holds what the model answered. -/
theorem Calls.Step.told_after (told : Told history before)
    (step : Calls.Step before happened after) :
    (∀ call ∈ after.alive, ∀ value tokens cost, call.progress = .answered value tokens cost →
      ∃ answer ∈ ⟨before, happened, after⟩ :: history, Answers answer call.attemptId value) ∧
    ∀ row ∈ after.world.db.ledger, row.status = .accepted → ∀ value, row.value = some value →
      ∃ answer ∈ ⟨before, happened, after⟩ :: history, Answers answer row.id value := by
  have alive_ : ∀ call ∈ before.alive, ∀ value tokens cost,
      call.progress = .answered value tokens cost →
      ∃ answer ∈ ⟨before, happened, after⟩ :: history, Answers answer call.attemptId value := by
    intro call goes value tokens cost answered
    obtain ⟨answer, member, answers⟩ := told.alive call goes value tokens cost answered
    exact ⟨answer, List.mem_cons_of_mem _ member, answers⟩
  have rows_ : ∀ row ∈ before.world.db.ledger, row.status = .accepted → ∀ value,
      row.value = some value →
      ∃ answer ∈ ⟨before, happened, after⟩ :: history, Answers answer row.id value := by
    intro row listed accepted value stored
    obtain ⟨answer, member, answers⟩ := told.rows row listed accepted value stored
    exact ⟨answer, List.mem_cons_of_mem _ member, answers⟩
  cases step.move with
  | idle ledger alive =>
    exact ⟨fun call going => alive_ call (alive call going), by rw [ledger]; exact rows_⟩
  | @heard heard progress found ledger alive _ _ answer =>
    refine ⟨fun call going value tokens cost answered => ?_, by rw [ledger]; exact rows_⟩
    rw [alive] at going
    rcases Table.mem_of_mem_put going with goes | rfl
    · exact alive_ call goes value tokens cost answered
    · obtain ⟨asked, made⟩ := answer value tokens cost answered
      exact ⟨_, List.mem_cons_self, heard, tokens, cost, found, asked, made⟩
  | admitted _ _ admission alive =>
    refine ⟨fun call going value tokens cost answered => ?_, ?_⟩
    · rw [alive] at going
      rcases Table.mem_insertIgnore going with rfl | goes
      · cases answered
      · exact alive_ call goes value tokens cost answered
    · rw [admission.frame]
      intro row member accepted
      rcases Table.mem_insertIgnore member with rfl | old
      · cases accepted
      · exact rows_ row old accepted
  | @accepted call value tokens cost _ attempt found answered _ _ held _ frame alive =>
    refine ⟨fun other going => ?_, ?_⟩
    · rw [alive] at going
      exact alive_ other (Table.mem_remove.mp going).1
    · rw [frame]
      intro row member accepted stored same
      rcases Table.mem_of_mem_put member with old | rfl
      · exact rows_ row old accepted stored same
      · obtain rfl : value = stored := Option.some.inj same
        have key : attempt.id = call.attemptId := Table.key_of_get held
        show ∃ answer ∈ _, Answers answer attempt.id value
        rw [key]
        exact alive_ call (Table.mem_of_get found) value tokens cost answered
  | @settled call status tokens cost attempt found _ ended held frame alive =>
    refine ⟨fun other going => ?_, ?_⟩
    · rw [alive] at going
      exact alive_ other (Table.mem_remove.mp going).1
    · rw [frame]
      intro row member accepted
      rcases Table.mem_of_mem_put member with old | rfl
      · exact rows_ row old accepted
      · rcases ended with ⟨_, rfl⟩ | ⟨_, rfl⟩ <;> exact absurd accepted nofun

/-- What the model answered before a step stays its only answer to the attempt. -/
theorem Calls.Step.known_after {attemptId : Nat} {value : Json}
    (reached : Reachable Calls.Step Calls.Initial before)
    (known : attemptId < before.world.db.nextId ∧
      (∀ call ∈ before.alive, call.attemptId = attemptId → call.progress ≠ .asked ∧
        ∀ other tokens cost, call.progress = .answered other tokens cost → other = value) ∧
      ∀ row ∈ before.world.db.ledger, row.id = attemptId → row.status = .accepted →
        row.value = some value)
    (step : Calls.Step before happened after) :
    attemptId < after.world.db.nextId ∧
      (∀ call ∈ after.alive, call.attemptId = attemptId → call.progress ≠ .asked ∧
        ∀ other tokens cost, call.progress = .answered other tokens cost → other = value) ∧
      ∀ row ∈ after.world.db.ledger, row.id = attemptId → row.status = .accepted →
        row.value = some value := by
  obtain ⟨known, calls_, rows_⟩ := known
  refine ⟨known.trans_le (step.supply_le reached), ?_⟩
  cases step.move with
  | idle ledger alive =>
    exact ⟨fun call going => calls_ call (alive call going), by rw [ledger]; exact rows_⟩
  | @heard heard progress found ledger alive waits _ answer =>
    refine ⟨fun call going key => ?_, by rw [ledger]; exact rows_⟩
    rw [alive] at going
    rcases Table.mem_of_mem_put going with goes | rfl
    · exact calls_ call goes key
    · refine ⟨waits, fun other tokens cost answered => ?_⟩
      exact absurd (answer other tokens cost answered).1
        (calls_ heard (Table.mem_of_get found) key).1
  | admitted _ _ admission alive =>
    refine ⟨fun call going key => ?_, ?_⟩
    · rw [alive] at going
      rcases Table.mem_insertIgnore going with rfl | goes
      · exact absurd key known.ne'
      · exact calls_ call goes key
    · rw [admission.frame]
      intro row member key accepted
      rcases Table.mem_insertIgnore member with rfl | old
      · cases accepted
      · exact rows_ row old key accepted
  | @accepted call other tokens cost _ attempt found answered _ _ held _ frame alive =>
    refine ⟨fun next going => ?_, ?_⟩
    · rw [alive] at going
      exact calls_ next (Table.mem_remove.mp going).1
    · rw [frame]
      intro row member key accepted
      rcases Table.mem_of_mem_put member with old | rfl
      · exact rows_ row old key accepted
      · have same : call.attemptId = attemptId := (Table.key_of_get held).symm.trans key
        exact congrArg some
          ((calls_ call (Table.mem_of_get found) same).2 other tokens cost answered)
  | @settled call status tokens cost attempt found _ ended held frame alive =>
    refine ⟨fun next going => ?_, ?_⟩
    · rw [alive] at going
      exact calls_ next (Table.mem_remove.mp going).1
    · rw [frame]
      intro row member key accepted
      rcases Table.mem_of_mem_put member with old | rfl
      · exact rows_ row old key accepted
      · rcases ended with ⟨_, rfl⟩ | ⟨_, rfl⟩ <;> exact absurd accepted nofun

theorem Calls.Step.told (reached : Reachable Calls.Step Calls.Initial before)
    (told : Told history before) (step : Calls.Step before happened after) :
    Told (⟨before, happened, after⟩ :: history) after := by
  have ledgered := reachable_ledgered reached
  obtain ⟨alive, rows⟩ := step.told_after told
  refine ⟨alive, rows, fun answer member attemptId value answers => ?_⟩
  rcases List.mem_cons.mp member with rfl | earlier
  · obtain ⟨call, tokens, cost, found, asked, made⟩ := answers
    obtain rfl : call.attemptId = attemptId := Table.key_of_get found
    obtain rfl : happened = .work call.attemptId (.answer true value tokens cost) := made
    obtain ⟨world, progress, alive, heard, only⟩ := step.hears found asked
    obtain ⟨attempt, waits⟩ := ledgered.waits call (Table.mem_of_get found)
    refine ⟨?_, fun other going key => ?_, fun row listed key accepted => ?_⟩
    · rw [world, ← Table.key_of_get waits.held]
      exact ledgered.below attempt (Table.mem_of_get waits.held)
    · rw [alive] at going
      rcases Table.mem_put.mp going with ⟨_, apart⟩ | ⟨rfl, _⟩
      · exact absurd key apart
      · exact ⟨heard, only⟩
    · rw [world] at listed
      have present := Table.get_of_mem listed
      rw [key, waits.held] at present
      obtain rfl := Option.some.inj present
      rw [waits.reserved] at accepted
      cases accepted
  · exact step.known_after reached (told.known answer earlier attemptId value answers)

/-- A reference that is returned is that of an accepted row of the step. -/
theorem Calls.Step.returns {runId : Nat} {step : String} {reference : Reference}
    (reached : Reachable Calls.Step Calls.Initial before)
    (taken : Calls.Step before happened after)
    (returns : before.Returns runId step reference happened) :
    ∃ row ∈ after.world.db.ledger, row.status = .accepted ∧
      reference = ⟨row.id, row.valueHash⟩ ∧
      ∃ input, after.world.db.inputs.get runId = some input ∧
        row.stepKey = stepKey input step := by
  have ledgered := reachable_ledgered reached
  cases returns with
  | replayed done =>
    obtain ⟨_, input, row, found, member, named, same⟩ := reserveCall_replay done
    obtain ⟨accepted, key⟩ := (ledgered.recorded row member).keyed named
    obtain ⟨later, present, sent⟩ := taken.keeps_input reached found
    obtain ⟨again, kept, stays⟩ := taken.stays ledgered member
    obtain rfl := stays.settled (by rw [accepted]; exact nofun)
    exact ⟨again, kept, accepted, same, later, present, key.trans (stepKey_of_sent sent step).symm⟩
  | @accepted call value tokens cost now db found run name answered done returned =>
    obtain ⟨attempt, _, held, _, frame⟩ := acceptCall_done done
    obtain ⟨row, waits⟩ := ledgered.waits call (Table.mem_of_get found)
    obtain rfl := Option.some.inj (waits.held.symm.trans held)
    obtain ⟨input, present, _, key⟩ := waits.run
    have made : call.transaction (.accept now) = some
        (.acceptCall call.runId call.owner call.attemptId value tokens cost now) := by
      unfold ModelCall.transaction
      rw [answered]
    obtain ⟨_, _, rfl⟩ := taken
    have written := work_written found made done
    rw [written, frame]
    refine ⟨acceptedRow row value tokens cost, Table.mem_put_self (Table.mem_of_get held) rfl, rfl,
      ?_, input, ?_, ?_⟩
    · rw [returned, ← Table.key_of_get held]
      rfl
    · rw [← run]
      exact present
    · rw [← name]
      exact key

end

end Negotiation
