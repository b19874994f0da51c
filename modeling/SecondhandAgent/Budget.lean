/-
This file proves what the ledger of model calls says about the budget of a run.
A call that is alive has a reservation of its own, which nobody else settles;
every reservation was within the caps of its run when it was made, and it stays
in the ledger whatever happens to the run. What is charged for an attempt is
not negative as long as the exceptions of the provider carry no negative usage.
-/

import SecondhandAgent.Calls
import SecondhandAgent.Supply

namespace Negotiation

open Store

/-! ### The rows of the ledger -/

section

variable [Platform]

/-- A row as the transactions of a call leave it. -/
structure ModelCallLedger.Recorded (row : ModelCallLedger) : Prop where
  unsettled : row.status = .reserved → row.actualTokens = none ∧ row.actualCost = none
  accepted : row.status = .accepted → row.acceptedKey = some row.stepKey ∧
    ∃ value, row.value = some value ∧ row.valueHash = some (digest value)
  others : row.status ≠ .accepted → row.acceptedKey = none
  positive : 0 < row.reservedTokens
  notNegative : ∀ cost ∈ row.reservedCost, 0 ≤ cost

theorem ModelCallLedger.Recorded.keyed {row : ModelCallLedger} {key : Digest}
    (recorded : row.Recorded) (named : row.acceptedKey = some key) :
    row.status = .accepted ∧ row.stepKey = key := by
  by_cases accepted : row.status = .accepted
  · exact ⟨accepted, Option.some.inj ((recorded.accepted accepted).1.symm.trans named)⟩
  · exact nomatch (recorded.others accepted).symm.trans named

/-- The call that is alive has a reservation for its step. -/
structure Waits (db : Db) (call : ModelCall) (row : ModelCallLedger) : Prop where
  held : db.ledger.get call.attemptId = some row
  reserved : row.status = .reserved
  run : ∃ input, db.inputs.get call.runId = some input ∧ row.inputId = input.id ∧
    row.stepKey = stepKey input call.step

/-- The ledger and the calls that are alive agree: each row is of a run that is there, a step
has one accepted row at most, and each call that is alive has a reservation. -/
structure Ledgered (db : Db) (alive : Table ModelCall.attemptId) : Prop where
  below : db.ledger.Below db.nextId
  recorded : ∀ row ∈ db.ledger, row.Recorded
  owned : ∀ row ∈ db.ledger, ∃ input ∈ db.inputs, input.id = row.inputId
  single : ∀ one ∈ db.ledger, ∀ two ∈ db.ledger, one.status = .accepted →
    two.status = .accepted → one.stepKey = two.stepKey → one = two
  waits : ∀ call ∈ alive, ∃ row, Waits db call row

/-- The step key of a run is that of the run as it was sent. -/
theorem stepKey_of_sent {one two : NegotiationInput} (same : one.sent = two.sent)
    (step : String) : stepKey one step = stepKey two step := by
  obtain ⟨id, _⟩ := NegotiationInput.of_sent same
  have hash : one.inputHash = two.inputHash := congrArg (·.inputHash) same
  have config : one.configHash = two.configHash := congrArg (·.configHash) same
  unfold stepKey
  rw [id, hash, config]

end

/-! ### The inputs -/

section

variable [Platform] {before after : Calls} {happened : CallEvent}

/-- An input stays as it was sent. -/
theorem World.Step.keeps_input {before after : World} {event : Event} {run : NegotiationInput}
    (reached : Reachable World.Step World.Initial before) (step : World.Step before event after)
    {runId : Nat} (found : before.db.inputs.get runId = some run) :
    ∃ later, after.db.inputs.get runId = some later ∧ later.sent = run.sent := by
  rcases step.performs with same | ⟨transaction, performs⟩
  · exact ⟨run, by rw [same]; exact found, rfl⟩
  · obtain ⟨later, member, sent⟩ :=
      run_stays (reachable_ordered reached) performs.done (Table.mem_of_get found)
    have key : later.id = runId :=
      (NegotiationInput.of_sent sent).1.trans (Table.key_of_get found)
    exact ⟨later, key ▸ Table.get_of_mem member, sent⟩

theorem Calls.Step.keeps_input {run : NegotiationInput}
    (reached : Reachable Calls.Step Calls.Initial before)
    (step : Calls.Step before happened after) {runId : Nat}
    (found : before.world.db.inputs.get runId = some run) :
    ∃ later, after.world.db.inputs.get runId = some later ∧ later.sent = run.sent := by
  rcases step.world with same | ⟨event, _, taken⟩
  · exact ⟨run, by rw [same]; exact found, rfl⟩
  · exact taken.keeps_input (reachable_world reached) found

/-- The supply of identifiers grows. -/
theorem Calls.Step.supply_le (reached : Reachable Calls.Step Calls.Initial before)
    (step : Calls.Step before happened after) :
    before.world.db.nextId ≤ after.world.db.nextId := by
  rcases step.world with same | ⟨event, _, taken⟩
  · rw [same]
  rcases taken.performs with same | ⟨transaction, performs⟩
  · rw [same]
  · exact perform_supply (reachable_shape (reachable_world reached)) performs.done

end

/-! ### The ledger and the calls agree -/

section

variable [Platform] {before after : Calls} {happened : CallEvent}

/-- Rows and calls that stay agree as long as the inputs do. -/
theorem Waits.kept {db later : Db} {call changed : ModelCall} {row : ModelCallLedger}
    (waits : Waits db call row) (id : changed.attemptId = call.attemptId)
    (run : changed.runId = call.runId) (step : changed.step = call.step)
    (held : later.ledger.get call.attemptId = some row)
    (inputs : ∀ runId input, db.inputs.get runId = some input →
      ∃ later_, later.inputs.get runId = some later_ ∧ later_.sent = input.sent) :
    Waits later changed row := by
  obtain ⟨input, found, owner, key⟩ := waits.run
  obtain ⟨again, present, sent⟩ := inputs _ _ found
  refine ⟨by rw [id]; exact held, waits.reserved, again, by rw [run]; exact present, ?_, ?_⟩
  · exact owner.trans (NegotiationInput.of_sent sent).1.symm
  · rw [step, stepKey_of_sent sent]
    exact key

/-- The row of a call that is alive is overwritten, and the call is over. -/
theorem Ledgered.settled {db : Db} {alive : Table ModelCall.attemptId} {call : ModelCall}
    {attempt changed : ModelCallLedger} (ledgered : Ledgered db alive)
    (held : db.ledger.get call.attemptId = some attempt)
    (id : changed.id = attempt.id) (input : changed.inputId = attempt.inputId)
    (recorded : changed.Recorded)
    (single : ∀ other ∈ db.ledger, other.id ≠ call.attemptId → changed.status = .accepted →
      other.status = .accepted → other.stepKey ≠ changed.stepKey) :
    Ledgered { db with ledger := db.ledger.put changed } (alive.remove call.attemptId) := by
  have key : attempt.id = call.attemptId := Table.key_of_get held
  have member : attempt ∈ db.ledger := Table.mem_of_get held
  refine ⟨ledgered.below.put, fun row listed => ?_, fun row listed => ?_,
    fun one listed two also acceptedOne acceptedTwo same => ?_, fun other going => ?_⟩
  · rcases Table.mem_of_mem_put listed with old | rfl
    · exact ledgered.recorded row old
    · exact recorded
  · rcases Table.mem_of_mem_put listed with old | rfl
    · exact ledgered.owned row old
    · rw [input]
      exact ledgered.owned attempt member
  · rcases Table.mem_put.mp listed with ⟨old, apart⟩ | ⟨rfl, _⟩ <;>
      rcases Table.mem_put.mp also with ⟨older, aside⟩ | ⟨rfl, _⟩
    · exact ledgered.single one old two older acceptedOne acceptedTwo same
    · exact absurd same (single one old (by rw [← key, ← id]; exact apart) acceptedTwo acceptedOne)
    · exact absurd same.symm
        (single two older (by rw [← key, ← id]; exact aside) acceptedOne acceptedTwo)
    · rfl
  · obtain ⟨goes, apart⟩ := Table.mem_remove.mp going
    obtain ⟨row, waits⟩ := ledgered.waits other goes
    refine ⟨row, waits.kept rfl rfl rfl ?_ fun _ input found => ⟨input, found, rfl⟩⟩
    show (db.ledger.put changed).get other.attemptId = some row
    rw [Table.get_put_ne (by rw [id, key]; exact apart)]
    exact waits.held

/-- An attempt is admitted, and its call begins. -/
theorem Ledgered.admitted {db later : Db} {alive : Table ModelCall.attemptId}
    {run : NegotiationInput} {owner : Owner} {step : String} {reservedTokens : Int}
    {reservedCost : Option Int} {checked : Time} (ledgered : Ledgered db alive)
    (admission : Admission db run owner step reservedTokens reservedCost checked later) :
    Ledgered later (alive.insertIgnore { attemptId := db.nextId, runId := run.id, owner, step }) := by
  obtain ⟨task, owned⟩ := admission.owned
  have found : db.inputs.get run.id = some run := (lockOwner_eq_ok.mp owned).1
  let new := reservedRow db run owner step reservedTokens reservedCost
  have recorded : new.Recorded :=
    { unsettled := fun _ => ⟨rfl, rfl⟩
      accepted := nofun
      others := fun _ => rfl
      positive := admission.positive
      notNegative := admission.notNegative }
  have present : (db.ledger.insertIgnore new).get db.nextId = some new := by
    rw [Table.get_insertIgnore, if_pos ⟨rfl, admission.free⟩]
  rw [admission.frame]
  refine ⟨?_, fun row listed => ?_, fun row listed => ?_,
    fun one listed two also acceptedOne acceptedTwo same => ?_, fun call going => ?_⟩
  · exact (ledgered.below.mono (Nat.le_succ _)).insertIgnore (Nat.lt_succ_self _)
  · rcases Table.mem_insertIgnore listed with rfl | old
    · exact recorded
    · exact ledgered.recorded row old
  · rcases Table.mem_insertIgnore listed with rfl | old
    · exact ⟨run, Table.mem_of_get found, rfl⟩
    · exact ledgered.owned row old
  · rcases Table.mem_insertIgnore listed with rfl | old
    · cases acceptedOne
    rcases Table.mem_insertIgnore also with rfl | older
    · cases acceptedTwo
    exact ledgered.single one old two older acceptedOne acceptedTwo same
  · rcases Table.mem_insertIgnore going with rfl | goes
    · exact ⟨new, present, rfl, run, found, rfl, rfl⟩
    · obtain ⟨row, waits⟩ := ledgered.waits call goes
      refine ⟨row, waits.kept rfl rfl rfl ?_ fun _ input found => ⟨input, found, rfl⟩⟩
      show (db.ledger.insertIgnore new).get call.attemptId = some row
      have apart : call.attemptId ≠ db.nextId := by
        intro same
        have held := waits.held
        rw [same, admission.free] at held
        cases held
      rw [Table.get_insertIgnore, if_neg fun both => apart both.1]
      exact waits.held

/-- Every step keeps the ledger and the calls in agreement. -/
theorem Calls.Step.ledgered (reached : Reachable Calls.Step Calls.Initial before)
    (ledgered : Ledgered before.world.db before.alive)
    (step : Calls.Step before happened after) : Ledgered after.world.db after.alive := by
  have inputs : ∀ runId input, before.world.db.inputs.get runId = some input →
      ∃ later, after.world.db.inputs.get runId = some later ∧ later.sent = input.sent :=
    fun _ _ found => step.keeps_input reached found
  -- Where the ledger is left alone, each call that goes on keeps its reservation.
  have spared : after.world.db.ledger = before.world.db.ledger →
      (∀ call ∈ after.alive, ∃ old ∈ before.alive, call.attemptId = old.attemptId ∧
        call.runId = old.runId ∧ call.step = old.step) → Ledgered after.world.db after.alive := by
    intro ledger alive
    refine ⟨?_, ?_, ?_, ?_, fun call going => ?_⟩
    · rw [ledger]
      exact ledgered.below.mono (step.supply_le reached)
    · rw [ledger]
      exact ledgered.recorded
    · rw [ledger]
      intro row listed
      obtain ⟨input, present, key⟩ := ledgered.owned row listed
      obtain ⟨later, found, sent⟩ := inputs _ _ (Table.get_of_mem present)
      exact ⟨later, Table.mem_of_get found, (NegotiationInput.of_sent sent).1.trans key⟩
    · rw [ledger]
      exact ledgered.single
    · obtain ⟨old, goes, id, run, name⟩ := alive call going
      obtain ⟨row, waits⟩ := ledgered.waits old goes
      exact ⟨row, waits.kept id run name (by rw [ledger]; exact waits.held) inputs⟩
  cases step.move with
  | idle ledger alive => exact spared ledger fun call going => ⟨call, alive call going, rfl, rfl, rfl⟩
  | @heard heard progress found ledger alive =>
    refine spared ledger fun call going => ?_
    rw [alive] at going
    rcases Table.mem_of_mem_put going with goes | rfl
    · exact ⟨call, goes, rfl, rfl, rfl⟩
    · exact ⟨heard, Table.mem_of_get found, rfl, rfl, rfl⟩
  | admitted _ _ admission alive =>
    rw [alive]
    exact ledgered.admitted admission
  | @accepted call value tokens cost _ attempt found _ _ _ held single frame alive =>
    obtain ⟨row, waits⟩ := ledgered.waits call (Table.mem_of_get found)
    obtain rfl := Option.some.inj (waits.held.symm.trans held)
    have old := ledgered.recorded row (Table.mem_of_get held)
    rw [frame, alive]
    refine ledgered.settled held rfl rfl ?_ fun other listed apart _ accepted same => ?_
    · exact
        { unsettled := nofun
          accepted := fun _ => ⟨rfl, value, rfl, rfl⟩
          others := fun different => absurd rfl different
          positive := old.positive
          notNegative := old.notNegative }
    · refine single other listed apart ?_
      rw [((ledgered.recorded other listed).accepted accepted).1]
      exact congrArg some same
  | @settled call status tokens cost attempt found _ ended held frame alive =>
    obtain ⟨row, waits⟩ := ledgered.waits call (Table.mem_of_get found)
    obtain rfl := Option.some.inj (waits.held.symm.trans held)
    have old := ledgered.recorded row (Table.mem_of_get held)
    have unaccepted : status ≠ .accepted ∧ status ≠ .reserved := by
      rcases ended with ⟨_, rfl⟩ | ⟨_, rfl⟩ <;> exact ⟨nofun, nofun⟩
    rw [frame, alive]
    refine ledgered.settled held rfl rfl ?_ fun other _ _ accepted => absurd accepted unaccepted.1
    exact
      { unsettled := fun reserved => absurd reserved unaccepted.2
        accepted := fun accepted => absurd accepted unaccepted.1
        others := fun _ => old.others (by rw [waits.reserved]; exact nofun)
        positive := old.positive
        notNegative := old.notNegative }

theorem reachable_ledgered {calls : Calls} (reached : Reachable Calls.Step Calls.Initial calls) :
    Ledgered calls.world.db calls.alive := by
  obtain ⟨first, history, initial, run⟩ := reached
  induction run with
  | start =>
    obtain ⟨⟨⟨_, _, _, _, _, _, _, db⟩, _⟩, alive⟩ := initial
    rw [db, alive]
    refine ⟨Table.below_empty _, ?_, ?_, ?_, ?_⟩
    all_goals exact fun _ member => absurd member (Table.not_mem_empty _)
  | next earlier taken inductionHypothesis =>
    exact taken.ledgered ⟨_, _, initial, earlier⟩ inductionHypothesis

/-! ### The number of calls -/

omit [Platform] in
/-- The attempts of a run after one of them is overwritten are as many as before. -/
theorem callsOf_put_length {db : Db} {attempt changed : ModelCallLedger}
    (held : db.ledger.get attempt.id = some attempt) (id : changed.id = attempt.id)
    (input : changed.inputId = attempt.inputId) (runId : Nat) :
    (callsOf { db with ledger := db.ledger.put changed } runId).length =
      (callsOf db runId).length := by
  unfold callsOf Table.put
  rw [List.filter_map, List.length_map]
  refine congrArg List.length (List.filter_congr fun old member => ?_)
  by_cases same : old.id = changed.id
  · obtain rfl : old = attempt :=
      Table.eq_of_key member (Table.mem_of_get held) (same.trans id)
    simp [id, input]
  · simp [same]

omit [Platform] in
/-- The attempts of a run after another one is added to the ledger. -/
theorem callsOf_insertIgnore {db : Db} {row : ModelCallLedger}
    (free : db.ledger.get row.id = none) (runId supply : Nat) :
    callsOf { db with ledger := db.ledger.insertIgnore row, nextId := supply } runId =
      if row.inputId = runId then row :: callsOf db runId else callsOf db runId := by
  unfold callsOf
  rw [Table.rows_insertIgnore free, List.filter_cons]
  by_cases same : row.inputId = runId
  · rw [if_pos same, if_pos (decide_eq_true same)]
  · rw [if_neg same, if_neg fun taken => same (of_decide_eq_true taken)]

omit [Platform] in
/-- Each run has as many attempts as its configuration allows at most. -/
def Counted (db : Db) : Prop :=
  ∀ input ∈ db.inputs, ((callsOf db input.id).length : Int) ≤ input.config.maxCalls

/-- An input was there before the step, or it was sent under a free key. -/
theorem Calls.Step.input_comes (step : Calls.Step before happened after)
    {later : NegotiationInput} (member : later ∈ after.world.db.inputs) :
    (∃ run ∈ before.world.db.inputs, later.sent = run.sent) ∨
      before.world.db.inputs.get later.id = none ∧ 0 ≤ later.config.maxCalls := by
  rcases step.world with same | ⟨event, _, taken⟩
  · exact .inl ⟨later, by rw [same] at member; exact member, rfl⟩
  rcases taken.performs with same | ⟨transaction, performs⟩
  · exact .inl ⟨later, by rw [same] at member; exact member, rfl⟩
  · exact (run_comes performs.done member).imp_right fun new => ⟨new.1, new.2.2.1⟩

theorem Calls.Step.counted (ledgered : Ledgered before.world.db before.alive)
    (counted : Counted before.world.db) (step : Calls.Step before happened after) :
    Counted after.world.db := by
  -- A run that is sent now has no attempt yet.
  have spared : after.world.db.ledger = before.world.db.ledger → Counted after.world.db := by
    intro ledger later member
    have calls : callsOf after.world.db later.id = callsOf before.world.db later.id := by
      unfold callsOf
      rw [ledger]
    rw [calls]
    rcases step.input_comes member with ⟨run, present, sent⟩ | ⟨absent, notNegative⟩
    · obtain ⟨id, _, _, _, config⟩ := NegotiationInput.of_sent sent
      rw [id, config]
      exact counted run present
    · have none : callsOf before.world.db later.id = [] := by
        refine List.filter_eq_nil_iff.mpr fun row listed same => ?_
        obtain ⟨input, present, key⟩ := ledgered.owned row listed
        have found := Table.get_of_mem present
        rw [key, of_decide_eq_true same, absent] at found
        cases found
      rw [none]
      exact notNegative
  have written : ∀ {call : ModelCall} {attempt changed : ModelCallLedger},
      after.world.db =
        { before.world.db with ledger := before.world.db.ledger.put changed } →
      before.world.db.ledger.get call.attemptId = some attempt → changed.id = attempt.id →
      changed.inputId = attempt.inputId → Counted after.world.db := by
    intro call attempt changed frame held id input later member
    rw [frame] at member ⊢
    rw [callsOf_put_length (Table.get_of_mem (Table.mem_of_get held)) id input]
    exact counted later member
  cases step.move with
  | idle ledger | heard _ ledger => exact spared ledger
  | @admitted run owner step reservedTokens reservedCost _ _ _ _ admission =>
    intro later member
    rw [admission.frame] at member ⊢
    have listed : later ∈ before.world.db.inputs := member
    have free : before.world.db.ledger.get (reservedRow before.world.db run owner step
        reservedTokens reservedCost).id = none := admission.free
    rw [callsOf_insertIgnore free]
    split
    · next same =>
      have same : run.id = later.id := same
      obtain ⟨task, owned⟩ := admission.owned
      obtain rfl : run = later := by
        have found := (lockOwner_eq_ok.mp owned).1
        rw [same, Table.get_of_mem listed] at found
        exact (Option.some.inj found).symm
      have room := admission.calls
      rw [List.length_cons]
      omega
    · exact counted later listed
  | accepted _ _ _ _ held _ frame => exact written frame held rfl rfl
  | settled _ _ _ held frame => exact written frame held rfl rfl

theorem reachable_counted {calls : Calls} (reached : Reachable Calls.Step Calls.Initial calls) :
    Counted calls.world.db := by
  obtain ⟨first, history, initial, run⟩ := reached
  induction run with
  | start =>
    obtain ⟨⟨⟨_, _, _, _, _, _, _, db⟩, _⟩, _⟩ := initial
    rw [db]
    exact fun _ member => absurd member (Table.not_mem_empty _)
  | next earlier taken inductionHypothesis =>
    exact taken.counted (reachable_ledgered ⟨_, _, initial, earlier⟩) inductionHypothesis

/-! ### The rows stay -/

omit [Platform] in
/-- What the ledger says of an attempt stays: its reservation does, and once it is settled
nothing of it changes. -/
structure Stays (row later : ModelCallLedger) : Prop where
  id : later.id = row.id
  input : later.inputId = row.inputId
  tokens : later.reservedTokens = row.reservedTokens
  cost : later.reservedCost = row.reservedCost
  settled : row.status ≠ .reserved → later = row

omit [Platform] in
theorem Stays.refl (row : ModelCallLedger) : Stays row row := ⟨rfl, rfl, rfl, rfl, fun _ => rfl⟩

/-- No row of the ledger is lost, and a row that is settled is not written again. -/
theorem Calls.Step.stays (ledgered : Ledgered before.world.db before.alive)
    (step : Calls.Step before happened after) {row : ModelCallLedger}
    (member : row ∈ before.world.db.ledger) :
    ∃ later ∈ after.world.db.ledger, Stays row later := by
  have spared : after.world.db.ledger = before.world.db.ledger →
      ∃ later ∈ after.world.db.ledger, Stays row later :=
    fun ledger => ⟨row, by rw [ledger]; exact member, .refl row⟩
  have written : ∀ {call : ModelCall} {attempt changed : ModelCallLedger},
      after.world.db =
        { before.world.db with ledger := before.world.db.ledger.put changed } →
      before.alive.get call.attemptId = some call →
      before.world.db.ledger.get call.attemptId = some attempt → changed.id = attempt.id →
      changed.inputId = attempt.inputId → changed.reservedTokens = attempt.reservedTokens →
      changed.reservedCost = attempt.reservedCost →
      ∃ later ∈ after.world.db.ledger, Stays row later := by
    intro call attempt changed frame alive held id input tokens cost
    rw [frame]
    by_cases same : row.id = attempt.id
    · obtain rfl : row = attempt := Table.eq_of_key member (Table.mem_of_get held) same
      obtain ⟨reserved, waits⟩ := ledgered.waits call (Table.mem_of_get alive)
      obtain rfl := Option.some.inj (waits.held.symm.trans held)
      exact ⟨changed, Table.mem_put_self member id.symm, id, input, tokens, cost,
        fun settled => absurd waits.reserved settled⟩
    · exact ⟨row, Table.mem_put_of_mem member (by rw [id]; exact same), .refl row⟩
  cases step.move with
  | idle ledger | heard _ ledger => exact spared ledger
  | admitted _ _ admission =>
    rw [admission.frame]
    exact ⟨row, Table.mem_insertIgnore_of_mem member, .refl row⟩
  | accepted alive _ _ _ held _ frame => exact written frame alive held rfl rfl rfl rfl
  | settled alive _ _ held frame => exact written frame alive held rfl rfl rfl rfl

/-- The transition admits the attempt of the row: what its run was charged with before and
the reservation of the row are within the caps of the run. -/
structure Admits (transition : Transition Calls CallEvent) (row : ModelCallLedger) : Prop where
  reserves : ∃ owner step checked timed, transition.event =
    .reserve row.inputId owner step row.reservedTokens row.reservedCost checked timed
  free : transition.before.world.db.ledger.get row.id = none
  capped : ∃ input, transition.before.world.db.inputs.get row.inputId = some input ∧
    ((callsOf transition.before.world.db row.inputId).map (·.tokens)).sum + row.reservedTokens ≤
      input.config.maxTokens ∧
    WithinCost (callsOf transition.before.world.db row.inputId) row.reservedCost
      input.config.maxCost

theorem Admits.of_stays {transition : Transition Calls CallEvent} {row later : ModelCallLedger}
    (admits : Admits transition row) (stays : Stays row later) : Admits transition later := by
  obtain ⟨id, input, tokens, cost, _⟩ := stays
  refine ⟨?_, ?_, ?_⟩
  · rw [input, tokens, cost]
    exact admits.reserves
  · rw [id]
    exact admits.free
  · rw [input, tokens, cost]
    exact admits.capped

/-- A row was there before the step, or the step admits its attempt. -/
theorem Calls.Step.row_comes (step : Calls.Step before happened after) {later : ModelCallLedger}
    (member : later ∈ after.world.db.ledger) :
    (∃ row ∈ before.world.db.ledger, row.id = later.id ∧ later.inputId = row.inputId ∧
      later.reservedTokens = row.reservedTokens ∧ later.reservedCost = row.reservedCost) ∨
      Admits ⟨before, happened, after⟩ later := by
  cases step.move with
  | idle ledger | heard _ ledger =>
    rw [ledger] at member
    exact .inl ⟨later, member, rfl, rfl, rfl, rfl⟩
  | @admitted run owner step reservedTokens reservedCost checked timed made _ admission =>
    obtain ⟨task, owned⟩ := admission.owned
    rw [admission.frame] at member
    rcases Table.mem_insertIgnore member with rfl | old
    · exact .inr ⟨⟨owner, step, checked, timed, made⟩, admission.free, run,
        (lockOwner_eq_ok.mp owned).1, admission.tokens, admission.cost⟩
    · exact .inl ⟨later, old, rfl, rfl, rfl, rfl⟩
  | accepted _ _ _ _ held _ frame | settled _ _ _ held frame =>
    rw [frame] at member
    rcases Table.mem_of_mem_put member with old | rfl
    · exact .inl ⟨later, old, rfl, rfl, rfl, rfl⟩
    · exact .inl ⟨_, Table.mem_of_get held, rfl, rfl, rfl, rfl⟩

/-! ### What is charged -/

/-- Nothing negative is charged, and no call that is alive is about to report such a usage. -/
structure Charged (calls : Calls) : Prop where
  rows : ∀ row ∈ calls.world.db.ledger, ValidUsage row.actualTokens row.actualCost
  alive : ∀ call ∈ calls.alive, call.progress.Sound

/-- Where a failed call is settled, the usage that its exception carries is not negative: the
code takes it down as it is. -/
def Calls.Honest (before : Calls) : CallEvent → Prop
  | .work attemptId .settle => ∀ call tokens cost, before.alive.get attemptId = some call →
    call.progress = .failed tokens cost → ValidUsage tokens cost
  | _ => True

theorem Calls.Step.charged (charged : Charged before) (honest : before.Honest happened)
    (step : Calls.Step before happened after) : Charged after := by
  cases step.move with
  | idle ledger alive =>
    exact ⟨by rw [ledger]; exact charged.rows, fun call going => charged.alive call (alive call going)⟩
  | @heard heard progress found ledger alive _ sound =>
    refine ⟨by rw [ledger]; exact charged.rows, fun call going => ?_⟩
    rw [alive] at going
    rcases Table.mem_of_mem_put going with goes | rfl
    · exact charged.alive call goes
    · exact sound (charged.alive heard (Table.mem_of_get found))
  | admitted _ _ admission alive =>
    refine ⟨?_, fun call going => ?_⟩
    · rw [admission.frame]
      intro row member
      rcases Table.mem_insertIgnore member with rfl | old
      · exact ⟨nofun, nofun⟩
      · exact charged.rows row old
    · rw [alive] at going
      rcases Table.mem_insertIgnore going with rfl | goes
      · trivial
      · exact charged.alive call goes
  | accepted found answered _ _ _ _ frame alive =>
    refine ⟨?_, fun call going => ?_⟩
    · rw [frame]
      intro row member
      rcases Table.mem_of_mem_put member with old | rfl
      · exact charged.rows row old
      · have sound := charged.alive _ (Table.mem_of_get found)
        rw [answered] at sound
        exact sound
    · rw [alive] at going
      exact charged.alive call (Table.mem_remove.mp going).1
  | settled found made ended _ frame alive =>
    refine ⟨?_, fun call going => ?_⟩
    · rw [frame]
      intro row member
      rcases Table.mem_of_mem_put member with old | rfl
      · exact charged.rows row old
      · rcases ended with ⟨failed, _⟩ | ⟨late, _⟩
        · subst made
          exact honest _ _ _ found failed
        · have sound := charged.alive _ (Table.mem_of_get found)
          rw [late] at sound
          exact sound
    · rw [alive] at going
      exact charged.alive call (Table.mem_remove.mp going).1

/-- What an attempt is charged with is not negative when its usage is not. -/
theorem ModelCallLedger.Recorded.charge {row : ModelCallLedger} (recorded : row.Recorded)
    (usage : ValidUsage row.actualTokens row.actualCost) :
    0 ≤ row.tokens ∧ ∀ cost ∈ row.cost, 0 ≤ cost := by
  refine ⟨?_, fun cost charged => ?_⟩
  · unfold ModelCallLedger.tokens
    cases actual : row.actualTokens with
    | none => exact recorded.positive.le
    | some used => exact usage.1 used actual
  · unfold ModelCallLedger.cost at charged
    rcases Option.or_eq_some_iff.mp charged with spent | ⟨_, reserved⟩
    · exact usage.2 cost spent
    · exact recorded.notNegative cost reserved

/-- The budget of a run. A run has as many attempts as its configuration allows at most. Every
attempt in the ledger was admitted by a transition that found what the run was charged with and
the new reservation within its caps. No row is lost, its reservation stays, and once it is
settled nothing of it changes; what happens outside of the calls, such as a restart, a takeover
or a recovery, leaves the ledger alone, and the caps of a run stay what they were. And as long
as the exceptions that are taken down carry no negative usage, nothing negative is charged. -/
theorem budget_is_kept {first last : Calls} {history : List (Transition Calls CallEvent)}
    (initial : Calls.Initial first) (run : Run Calls.Step first history last)
    (honest : ∀ transition ∈ history, transition.before.Honest transition.event) :
    (∀ input ∈ last.world.db.inputs,
      ((callsOf last.world.db input.id).length : Int) ≤ input.config.maxCalls) ∧
    (∀ row ∈ last.world.db.ledger, ∃ transition ∈ history, Admits transition row) ∧
    (∀ row ∈ last.world.db.ledger, 0 ≤ row.tokens ∧ ∀ cost ∈ row.cost, 0 ≤ cost) ∧
    (∀ transition ∈ history,
      (∀ row ∈ transition.before.world.db.ledger,
        ∃ later ∈ transition.after.world.db.ledger, Stays row later) ∧
      (∀ input ∈ transition.before.world.db.inputs,
        ∃ later ∈ transition.after.world.db.inputs,
          later.id = input.id ∧ later.config = input.config) ∧
      ∀ event, transition.event = .other event →
        transition.after.world.db.ledger = transition.before.world.db.ledger) := by
  have reached : Reachable Calls.Step Calls.Initial last := ⟨first, history, initial, run⟩
  have ledgered := reachable_ledgered reached
  refine ⟨reachable_counted reached, ?_, ?_, fun transition member => ?_⟩
  · clear honest reached ledgered
    induction run with
    | start =>
      obtain ⟨⟨⟨_, _, _, _, _, _, _, db⟩, _⟩, _⟩ := initial
      rw [db]
      exact fun _ member => absurd member (Table.not_mem_empty _)
    | next earlier taken inductionHypothesis =>
      intro row member
      have ledgered := reachable_ledgered ⟨_, _, initial, earlier⟩
      rcases taken.row_comes member with ⟨old, listed, same, _⟩ | admits
      · obtain ⟨transition, passed, admits⟩ := inductionHypothesis old listed
        obtain ⟨later, kept, stays⟩ := taken.stays ledgered listed
        obtain rfl := Table.eq_of_key kept member (stays.id.trans same)
        exact ⟨transition, List.mem_cons_of_mem _ passed, admits.of_stays stays⟩
      · exact ⟨_, List.mem_cons_self, admits⟩
  · have charged : Charged last := by
      clear reached ledgered
      induction run with
      | start =>
        obtain ⟨⟨⟨_, _, _, _, _, _, _, db⟩, _⟩, alive⟩ := initial
        refine ⟨?_, ?_⟩
        · rw [db]
          exact fun _ member => absurd member (Table.not_mem_empty _)
        · rw [alive]
          exact fun _ member => absurd member (Table.not_mem_empty _)
      | next earlier taken inductionHypothesis =>
        have before := inductionHypothesis fun transition member =>
          honest transition (List.mem_cons_of_mem _ member)
        exact taken.charged before (honest _ List.mem_cons_self)
    exact fun row member => (ledgered.recorded row member).charge (charged.rows row member)
  · have before := run.reachable_before (.start initial) member
    have taken := run.taken member
    refine ⟨fun row listed => taken.stays (reachable_ledgered before) listed,
      fun input listed => ?_, fun event other => ?_⟩
    · obtain ⟨later, found, sent⟩ := taken.keeps_input before (Table.get_of_mem listed)
      obtain ⟨id, _, _, _, config⟩ := NegotiationInput.of_sent sent
      exact ⟨later, Table.mem_of_get found, id, config⟩
    · rw [other] at taken
      rcases taken.world with same | ⟨event_, named, stepped⟩
      · rw [same]
      · obtain rfl := Option.some.inj named
        exact stepped.ledger taken.2.1

end

/-- The model answers within the reservation, and its result is accepted. -/
def answering : List CallEvent :=
  asking ++
    [.work 7 (.answer true (.text "intents") (some 900) none), .work 7 (.accept (seconds 2))]

attribute [local instance] samplePlatform in
/-- The attempt that was answered is charged with what is not negative. -/
theorem budget_is_kept_answering :
    (∃ row ∈ (reviewedCalls.after answering).world.db.ledger, row.tokens = 900) ∧
      ∀ row ∈ (reviewedCalls.after answering).world.db.ledger,
        0 ≤ row.tokens ∧ ∀ cost ∈ row.cost, 0 ≤ cost := by
  have run : Run Calls.Step reviewedCalls (reviewedCalls.history [] answering)
      (reviewedCalls.after answering) :=
    Calls.run_history (.start _) (by decide +kernel)
  have honest : ∀ transition ∈ reviewedCalls.history [] answering,
      transition.before.Honest transition.event := by
    intro transition member
    rcases Calls.event_of_history member with old | listed
    · cases old
    · simp only [answering, asking, written, List.map_cons, List.map_nil, List.cons_append,
        List.nil_append, List.mem_cons, List.not_mem_nil, or_false] at listed
      rcases listed with made | made | made | made | made <;> rw [made] <;> trivial
  refine ⟨?_, (budget_is_kept reviewedCalls_initial run honest).2.2.1⟩
  decide +kernel

/-- The model's answer is incomplete and carries a negative usage, which is taken down; then
more is reserved than the run may spend. -/
def overspending : List CallEvent :=
  asking ++
    [.work 7 (.fail (some (-5)) none), .work 7 .settle,
      .reserve 3 (6, 1) "intents" 180005 none (seconds 2) (seconds 2)]

attribute [local instance] samplePlatform in
/-- An attempt is charged with a negative usage, and one is admitted that reserves more than
the cap of its run. -/
theorem negative_usage_is_charged :
    ∃ (first last : Calls) (history : List (Transition Calls CallEvent)),
      Calls.Initial first ∧ Run Calls.Step first history last ∧
        (∃ row ∈ last.world.db.ledger, row.tokens < 0) ∧
        ∃ row ∈ last.world.db.ledger, ∃ input ∈ last.world.db.inputs,
          input.id = row.inputId ∧ input.config.maxTokens < row.reservedTokens :=
  ⟨reviewedCalls, reviewedCalls.after overspending, reviewedCalls.history [] overspending,
    reviewedCalls_initial, Calls.run_history (.start _) (by decide +kernel),
    by decide +kernel, by decide +kernel⟩

end Negotiation
