/-
This file is about the one claim that cannot commit. A claim that finds the time
of a run used up gives the run up, but it leaves the retry time of the task in
place, and the table of tasks takes a retry time only with a task that waits for
its retry. The theorems say that nothing else of the queue runs into a constraint
of that table, and what becomes of the queue behind such a run: the head stays as
it is, and nobody gets past it, until the seller sends it back or its reply is
published by a process that asks no lease.
-/

import SecondhandAgent.Winding
import SecondhandAgent.Window

namespace Negotiation

open Store

/-- A claim finds the time of the run used up while its task waits for a retry. -/
structure Jammed (db : Db) (run : NegotiationInput) (task : ModelExecutionTask) (now : Time) :
    Prop where
  claimable : Claimable db run task now
  waits : task.status = .retryWait
  overdue : (claimDeadline db run task now).2 ≤ now

/-! ### The constraints of the table -/

section

variable {db : Db} {task : ModelExecutionTask} {now : Time}

theorem saveTask_eq_error {fault : Failure} :
    db.saveTask task = .error fault ↔ ¬ task.Lawful ∧ fault = .check := by
  unfold Db.saveTask
  by_cases lawful : task.Lawful <;> simp [lawful, eq_comm]

/-- A task that keeps the constraints is written. -/
theorem saveTask_ne_error {fault : Failure} (lawful : task.Lawful) :
    db.saveTask task ≠ .error fault :=
  fun failed => (saveTask_eq_error.mp failed).1 lawful

theorem map_eq_error {Value Result : Type} {outcome : Except Failure Value}
    {change : Value → Result} {fault : Failure} :
    outcome.map change = .error fault ↔ outcome = .error fault := by
  cases outcome <;> simp [Except.map]

/-- A task that is given up keeps the constraints if it had no retry time. -/
theorem failed_lawful_iff (task : ModelExecutionTask) :
    task.failed.Lawful ↔ task.nextRetryAt = none := by
  constructor
  · rintro ⟨_, ⟨waits, _⟩ | ⟨_, cleared⟩⟩
    · cases waits
    · exact cleared
  · exact fun cleared => ⟨Or.inr ⟨nofun, rfl, rfl, rfl⟩, Or.inr ⟨nofun, cleared⟩⟩

/-- A task that keeps the constraints has a retry time when it waits for its retry. -/
theorem waits_iff (lawful : task.Lawful) : task.status = .retryWait ↔ task.nextRetryAt ≠ none := by
  rcases lawful.2 with ⟨waits, given⟩ | ⟨idle, cleared⟩
  · exact iff_of_true waits given
  · exact iff_of_false idle (not_not_intro cleared)

/-- The claim of a run that is there, in full. -/
theorem claim_found {run : NegotiationInput} {stored : StoredTask}
    (found : db.queue.find run.id = some (run, stored)) :
    claim db run.id now =
      if Claimable db run stored.val now then
        if (claimDeadline db run stored.val now).2 ≤ now then
          giveUp db (claimDeadline db run stored.val now).1 stored.val
        else if stored.val.maxAttempts ≤ stored.val.attemptCount then
          giveUp db (claimDeadline db run stored.val now).1
            { stored.val with nextRetryAt := none }
        else grant db (claimDeadline db run stored.val now).1 stored.val now
          (claimDeadline db run stored.val now).2
      else pure (db, none) := by
  obtain ⟨present, held⟩ := find_eq_some.mp found
  unfold claim
  rw [show db.inputs.get run.id = some run from present]
  show (expect (db.tasks.get run.taskId) _ >>= _) = _
  rw [show db.tasks.get run.taskId = some stored from held]
  rfl

theorem giveUp_eq_error {run : NegotiationInput} {fault : Failure} :
    giveUp db run task = .error fault ↔ task.nextRetryAt ≠ none ∧ fault = .check := by
  unfold giveUp
  rw [bind_eq_error, saveTask_eq_error, failed_lawful_iff]
  constructor
  · rintro (failed | ⟨_, _, same⟩)
    · exact failed
    · cases same
  · exact Or.inl

theorem claim_eq_check {runId : Nat} :
    claim db runId now = .error .check ↔
      ∃ run stored, db.queue.find runId = some (run, stored) ∧ Jammed db run stored.val now := by
  cases found : db.queue.find runId with
  | none =>
    refine iff_of_false (fun failed => ?_) ?_
    · unfold claim at failed
      unfold Queue.find at found
      cases present : db.inputs.get runId with
      | none =>
        rw [present] at failed
        cases failed
      | some run =>
        rw [show db.queue.inputs.get runId = some run from present, Option.bind_some,
          Option.map_eq_none_iff] at found
        rw [present, bind_eq_error] at failed
        rcases failed with failed | ⟨same, here, failed⟩
        · cases failed
        · cases here
          rw [show db.tasks.get run.taskId = none from found] at failed
          cases failed
    · rintro ⟨_, _, present, _⟩
      cases present
  | some pair =>
    obtain ⟨run, stored⟩ := pair
    obtain rfl : run.id = runId := Table.key_of_get (find_eq_some.mp found).1
    have jams : claim db run.id now = .error .check ↔ Jammed db run stored.val now := by
      rw [claim_found found]
      constructor
      · intro failed
        split at failed
        · next claimable =>
          split at failed
          · next overdue =>
            have waits := (waits_iff stored.property).mpr (giveUp_eq_error.mp failed).1
            exact ⟨claimable, waits, overdue⟩
          · split at failed
            · exact absurd rfl (giveUp_eq_error.mp failed).1
            · unfold grant at failed
              rw [bind_eq_error] at failed
              rcases failed with failed | ⟨_, _, same⟩
              · exact absurd failed (saveTask_ne_error (granted_lawful _ _ _ _))
              · cases same
        · cases failed
      · rintro ⟨claimable, waits, overdue⟩
        rw [if_pos claimable, if_pos overdue, giveUp_eq_error]
        exact ⟨(waits_iff stored.property).mp waits, rfl⟩
    rw [jams]
    constructor
    · exact fun jammed => ⟨run, stored, rfl, jammed⟩
    · rintro ⟨_, _, same, jammed⟩
      obtain ⟨rfl, rfl⟩ := Prod.mk.inj (Option.some.inj same)
      exact jammed

variable {runId instanceId : Nat} {owner : Owner} {recoveryRequired pending force : Bool}
variable {checked settled retried extended compared : Time}

end

/-- The time in which the run can be wound up has passed: its closing window is over, or its
reply was due for as long as the window lasts. -/
def OutOfTime (db : Db) (run : NegotiationInput) (now : Time) : Prop :=
  match run.closingDeadline with
  | some closing => closing ≤ now
  | none => ∃ delivery, db.reply run.id = some delivery ∧
      delivery.replyDeadline + closingWindow ≤ now

/-- The head waits for a retry with its time used up, and only an operator would stop it. -/
structure Blocked (world : World) (run : NegotiationInput) (stored : StoredTask) : Prop where
  found : world.db.queue.find run.id = some (run, stored)
  head : run.inputSeq = world.db.session.lastResolvedInputSeq + 1
  waits : stored.val.status = .retryWait
  trusted : run.recoveryRequired = false
  unstopped : stored.val.lastManualAction ≠ some .terminate
  late : OutOfTime world.db run world.clock

section

variable {db : Db} {run : NegotiationInput} {task : ModelExecutionTask} {now later : Time}

theorem OutOfTime.mono (late : OutOfTime db run now) (passes : now ≤ later) :
    OutOfTime db run later := by
  unfold OutOfTime at late ⊢
  split
  · next closing closes =>
    rw [closes] at late
    exact late.trans passes
  · next opens =>
    rw [opens] at late
    obtain ⟨delivery, replied, due⟩ := late
    exact ⟨delivery, replied, due.trans passes⟩

theorem min_add_le_iff {now lease closing : Nat} (positive : 0 < lease) :
    min (now + lease) closing ≤ now ↔ closing ≤ now := by
  omega

theorem add_le_of_min {now left due window : Nat} (positive : 0 < window) :
    min (now + left) due + window ≤ now ↔ due + window ≤ now := by
  omega

theorem not_add_add_le {now left window : Nat} (positive : 0 < window) :
    ¬ now + left + window ≤ now := by
  omega

/-- The lease of a run that is not active ends in the past once the run is out of time. -/
theorem leaseDeadline_le_iff (db : Db) (run : NegotiationInput) (now : Time) :
    (leaseDeadline db run now).2 ≤ now ↔ OutOfTime db run now := by
  have lease : 0 < seconds 30 := by decide
  have window : 0 < closingWindow := by decide
  unfold leaseDeadline OutOfTime
  cases run.closingDeadline with
  | some closing => exact min_add_le_iff lease
  | none =>
    have due : activityEnd db run now + closingWindow ≤ now ↔ ∃ delivery,
        db.reply run.id = some delivery ∧ delivery.replyDeadline + closingWindow ≤ now := by
      unfold activityEnd
      cases db.reply run.id with
      | none =>
        refine iff_of_false (not_add_add_le window) ?_
        rintro ⟨_, same, _⟩
        cases same
      | some delivery =>
        refine (add_le_of_min window).trans ⟨fun due => ⟨delivery, rfl, due⟩, ?_⟩
        rintro ⟨_, same, due⟩
        obtain rfl := Option.some.inj same
        exact due
    have ends := (min_add_le_iff lease : min (now + seconds 30)
      (activityEnd db run now + closingWindow) ≤ now ↔ _)
    dsimp only
    split <;> exact ends.trans due

theorem settle_idle (idle : run.activeSince = none) (now : Time) :
    (settle run now).closingDeadline = run.closingDeadline := by
  unfold settle
  rw [idle]

/-- A claim of a run that is not active finds its time used up once the run is out of time,
unless the claim only winds it up. -/
theorem claimDeadline_le_iff (idle : run.activeSince = none) :
    (claimDeadline db run task now).2 ≤ now ↔
      ¬ CleanupOnly db run.id task ∧ OutOfTime db run now := by
  have settled : OutOfTime db (settle run now) now ↔ OutOfTime db run now := by
    unfold OutOfTime
    rw [settle_idle idle now]
    rfl
  unfold claimDeadline
  dsimp only
  split
  · next cleanup =>
    have ahead : now < now + closingWindow := Nat.lt_add_of_pos_right (by decide)
    exact iff_of_false (Nat.not_le.mpr ahead) fun both => both.1 cleanup
  · next working =>
    rw [leaseDeadline_le_iff, settled]
    exact ⟨fun late => ⟨working, late⟩, fun both => both.2⟩

/-- A run whose task waits for a retry is not active. -/
theorem Turn.idle {changed : NegotiationInput} {moved : ModelExecutionTask}
    {transaction : Transaction} {cursor : Nat}
    (turn : Turn db run task transaction changed moved cursor)
    (waits : moved.status = .retryWait) : changed.activeSince = none := by
  cases turn with
  | gaveUp | granted | finalized | recovered => cases waits
  | extended owned =>
    have running : task.status = .retryWait := waits
    rw [owned.2.1] at running
    cases running
  | released | cleaned | killed => rfl

/-- A task that waits for a retry is moved by a claim or by an operator. -/
theorem Turn.of_waits {changed : NegotiationInput} {moved : ModelExecutionTask}
    {transaction : Transaction} {cursor : Nat}
    (turn : Turn db run task transaction changed moved cursor) (waits : task.status = .retryWait) :
    (∃ now, transaction = .claim run.id now ∧ Claimable db run task now) ∨
      ∃ seller action requestId reason now,
        transaction = .act seller (.run run.id) action requestId reason now := by
  cases turn with
  | gaveUp claimable | granted claimable => exact .inl ⟨_, rfl, claimable⟩
  | released owned | extended owned | finalized owned =>
    rw [owned.2.1] at waits
    cases waits
  | cleaned _ _ running | killed _ running =>
    rw [running] at waits
    cases waits
  | recovered => exact .inr ⟨_, _, _, _, _, rfl⟩

end

section

variable [Platform]

theorem reachable_idle {world : World} (reached : Reachable World.Step World.Initial world) :
    ∀ run stored, world.db.queue.find run.id = some (run, stored) →
      stored.val.status = .retryWait → run.activeSince = none := by
  refine (database_invariant (fun db => Ordered db.queue ∧ ∀ run stored,
    db.queue.find run.id = some (run, stored) → stored.val.status = .retryWait →
      run.activeSince = none) (fun world initial => ⟨reachable_ordered (.start initial), ?_⟩)
    ?_ reached).2
  · obtain ⟨⟨_, _, _, _, _, _, _, db⟩, _⟩ := initial
    rw [db]
    intro run stored found
    have present := (find_eq_some.mp found).1
    exact absurd (Table.mem_of_get present) (Table.not_mem_empty run)
  · rintro db transaction after ⟨ordered, idle⟩ done
    refine ⟨perform_ordered ordered done, fun run stored located waits => ?_⟩
    cases perform_run ordered done run.id with
    | kept same => exact idle run stored (same.symm.trans located) waits
    | new _ present _ fresh =>
      obtain ⟨rfl, rfl⟩ := Prod.mk.inj (Option.some.inj (located.symm.trans present))
      rw [fresh] at waits
      cases waits
    | turned _ _ turn there =>
      obtain ⟨rfl, rfl⟩ := Prod.mk.inj (Option.some.inj (located.symm.trans there))
      exact turn.idle waits

/-- The step is not a recovery action on the run. -/
def Event.Recovers (event : Event) (runId : Nat) : Prop :=
  ∃ seller action requestId reason now,
    event = .call (.act seller (.run runId) action requestId reason now)

/-- The reply of the run is not out. -/
def Unreplied (world : World) (runId : Nat) : Prop :=
  ∀ reply, world.db.reply runId = some reply → reply.status ≠ .published

/-- A claim of a blocked head that is due, and has no answer that is out, cannot commit. -/
theorem Blocked.jammed {world : World} {run : NegotiationInput} {stored : StoredTask} {now : Time}
    (reached : Reachable World.Step World.Initial world) (blocked : Blocked world run stored)
    (unreplied : Unreplied world run.id) (passes : world.clock ≤ now)
    (claimable : Claimable world.db run stored.val now) :
    Jammed world.db run stored.val now := by
  refine ⟨claimable, blocked.waits, ?_⟩
  have idle := reachable_idle reached run stored blocked.found blocked.waits
  refine (claimDeadline_le_iff idle).mpr ⟨?_, blocked.late.mono passes⟩
  rintro (stopped | answered)
  · exact blocked.unstopped stopped
  · obtain ⟨reply, replied, shown⟩ := Option.map_eq_some_iff.mp answered
    exact unreplied reply replied shown

/-- What was answered stays answered. -/
theorem World.Step.unreplied {before after : World} {event : Event} {runId : Nat}
    (reached : Reachable World.Step World.Initial before) (step : World.Step before event after)
    (unreplied : Unreplied after runId) : Unreplied before runId := by
  intro reply replied shown
  have run : Run World.Step before [⟨before, event, after⟩] after := (Run.start before).next step
  have stays := run_published reached run reply (Table.mem_of_get replied) shown
  have key : reply.id = .turnReply runId := Table.key_of_get replied
  have later : after.db.reply runId = some reply := by
    unfold Db.reply
    rw [← key]
    exact Table.get_of_mem stays
  exact unreplied reply later shown

/-- One step leaves a blocked head as it is. -/
theorem World.Step.blocked {before after : World} {event : Event} {run : NegotiationInput}
    {stored : StoredTask} (reached : Reachable World.Step World.Initial before)
    (step : World.Step before event after) (blocked : Blocked before run stored)
    (unrecovered : ¬ event.Recovers run.id) (unreplied : Unreplied after run.id) :
    Blocked after run stored ∧
      after.db.session.lastResolvedInputSeq = before.db.session.lastResolvedInputSeq := by
  have ordered := reachable_ordered reached
  have cursor : after.db.session.lastResolvedInputSeq =
      before.db.session.lastResolvedInputSeq := by
    rcases step.advances reached with same | ⟨moved, other, member, held, _, tasked, place, _, ends⟩
    · exact same
    · have head : other.inputSeq = run.inputSeq := place.trans (moved.trans blocked.head.symm)
      obtain ⟨present, here⟩ := find_eq_some.mp blocked.found
      obtain rfl := ordered.numbered.once other member run (Table.mem_of_get present) head
      obtain rfl := Option.some.inj (here.symm.trans tasked)
      obtain ⟨_, _, _, _, _, owned, _⟩ := ends
      exact absurd (owned.2.1.symm.trans blocked.waits) (by decide)
  have late : after.clock ≥ before.clock → after.db.queue.find run.id = some (run, stored) →
      Blocked after run stored := by
    intro passes found
    refine ⟨found, cursor ▸ blocked.head, blocked.waits, blocked.trusted, blocked.unstopped, ?_⟩
    have still := blocked.late.mono passes
    unfold OutOfTime at still ⊢
    split at still
    · next closing closes =>
      exact still
    · next opens =>
      obtain ⟨delivery, replied, due⟩ := still
      obtain ⟨new, member, same⟩ := step.grows.notices delivery (Table.mem_of_get replied)
      have key : new.id = delivery.id := (congrArg (·.id) same :)
      have deadline : new.replyDeadline = delivery.replyDeadline :=
        (congrArg (·.replyDeadline) same :)
      refine ⟨new, ?_, deadline ▸ due⟩
      unfold Db.reply
      rw [← (key.trans (Table.key_of_get replied) : new.id = .turnReply run.id)]
      exact Table.get_of_mem member
  refine ⟨?_, cursor⟩
  rcases step.performs with same | ⟨transaction, performs⟩
  · exact late step.clock_le (same ▸ blocked.found)
  cases perform_run ordered performs.done run.id with
  | kept same => exact late step.clock_le (same.trans blocked.found)
  | new absent =>
    rw [blocked.found] at absent
    cases absent
  | turned _ present turn there =>
    obtain ⟨rfl, rfl⟩ := Prod.mk.inj (Option.some.inj (blocked.found.symm.trans present))
    rcases turn.of_waits blocked.waits with
      ⟨now, rfl, claimable⟩ | ⟨seller, action, requestId, reason, now, rfl⟩
    · have done := performs.done
      have jammed := blocked.jammed reached (step.unreplied reached unreplied)
        (performs.within.mem List.mem_cons_self).1 claimable
      have failed : before.db.perform (.claim run.id now) = .error .check :=
        map_eq_error.mpr (claim_eq_check.mpr ⟨run, stored, blocked.found, jammed⟩)
      rw [failed] at done
      cases done
    · exact absurd ⟨seller, action, requestId, reason, now, performs.source.resolve_right id⟩
        unrecovered

end

end Negotiation
