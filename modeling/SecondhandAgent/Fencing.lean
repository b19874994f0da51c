/-
This file proves that the ownership of a run is fenced. The task of a run is a
lease in the sense of the library: the test every write of an executing process
begins with lets a pair through exactly when the lease does, and whatever
happens to the system is a move of that lease. So at most one pair passes, each
grant has an epoch of its own, and a process that lost its run cannot write to
it again.
-/

import SecondhandAgent.Cursor
import SecondhandAgent.Lease

namespace Negotiation

open Store

/-! ### The lease of a run -/

/-- The lease a task amounts to. -/
def ModelExecutionTask.lease (task : ModelExecutionTask) : Lease Nat where
  epoch := task.ownershipEpoch
  held :=
    if task.runtimeKind = .langGraph ∧ task.status = .running then
      match task.leaseToken, task.leaseExpiresAt with
      | some token, some end_ => some (token, end_)
      | _, _ => none
    else none

/-- The test of ownership is the test of the lease. -/
theorem ownedBy_iff {task : ModelExecutionTask} {owner : Owner} {now : Time} :
    OwnedBy task owner now ↔ task.lease.Admits owner now := by
  unfold OwnedBy Lease.Admits ModelExecutionTask.lease
  constructor
  · rintro ⟨kind, running, token, epoch, ahead⟩
    cases expiry : task.leaseExpiresAt with
    | none =>
      rw [expiry] at ahead
      exact absurd ahead (ahead_none now)
    | some end_ =>
      rw [expiry] at ahead
      exact ⟨epoch.symm, end_, by simp [kind, running, token], ahead⟩
  · rintro ⟨epoch, end_, held, ahead⟩
    dsimp only at held
    split at held
    · next kind =>
      split at held
      · next token expiry =>
        obtain ⟨rfl, rfl⟩ := Prod.mk.inj (Option.some.inj held)
        rw [expiry]
        exact ⟨kind.1, kind.2, token, epoch.symm, ahead⟩
      · cases held
    · cases held

/-- A task that is given back, or taken away, is a lease that is dropped. -/
theorem lease_dropped {task moved : ModelExecutionTask} {clock : Time}
    (idle : moved.status ≠ .running) (le : task.ownershipEpoch ≤ moved.ownershipEpoch) :
    Lease.Move clock task.lease moved.lease := by
  have free : moved.lease = ⟨moved.ownershipEpoch, none⟩ := by
    unfold ModelExecutionTask.lease
    rw [if_neg fun both => idle both.2]
  rw [free]
  exact .dropped _ le

/-- A grant is a change of hands. -/
theorem lease_granted (task : ModelExecutionTask) (token owner : Nat) (deadline clock : Time) :
    Lease.Move clock task.lease (task.granted token owner deadline).lease := by
  by_cases kind : task.runtimeKind = .langGraph
  · have lease : (task.granted token owner deadline).lease =
        ⟨task.lease.epoch + 1, some (token, datetime deadline)⟩ := by
      unfold ModelExecutionTask.lease
      rw [if_pos ⟨kind, rfl⟩]
      rfl
    rw [lease]
    exact .granted _ _
  · have lease : (task.granted token owner deadline).lease = ⟨task.ownershipEpoch + 1, none⟩ := by
      unfold ModelExecutionTask.lease
      rw [if_neg fun both => kind both.1]
      rfl
    rw [lease]
    exact .dropped _ (Nat.le_succ _)

/-- A turn of a run is a move of its lease. -/
theorem Turn.lease {db : Db} {run changed : NegotiationInput} {task moved : ModelExecutionTask}
    {transaction : Transaction} {cursor : Nat} {clock later : Time}
    (turn : Turn db run task transaction changed moved cursor)
    (within : Within clock transaction.readings later) :
    Lease.Move clock task.lease moved.lease := by
  cases turn with
  | gaveUp | released | finalized | recovered => exact lease_dropped nofun (Nat.le_refl _)
  | cleaned | killed => exact lease_dropped nofun (Nat.le_succ _)
  | granted => exact lease_granted task _ _ _ _
  | @extended owner checked extended compared owned =>
    have since : clock ≤ checked := within.three.1
    have held := ownedBy_iff.mp owned
    have lease : (task.extended (leaseDeadline db run extended).2).lease =
        ⟨task.lease.epoch, some (owner.1, datetime (leaseDeadline db run extended).2)⟩ := by
      obtain ⟨kind, running, token, _⟩ := owned
      unfold ModelExecutionTask.lease ModelExecutionTask.extended
      simp [kind, running, token]
    rw [lease]
    exact .extended _ held since

/-- The lease of a run; a run that is not there was never granted. -/
def Queue.leaseOf (queue : Queue) (runId : Nat) : Lease Nat :=
  ((queue.find runId).map (·.2.val.lease)).getD ⟨0, none⟩

theorem leaseOf_of_find {queue : Queue} {runId : Nat} {pair : NegotiationInput × StoredTask}
    (located : queue.find runId = some pair) : queue.leaseOf runId = pair.2.val.lease := by
  unfold Queue.leaseOf
  rw [located]
  rfl

/-- The owner passes the test of ownership. -/
def Passes (db : Db) (runId : Nat) (owner : Owner) (now : Time) : Prop :=
  ∃ run task, lockOwner db runId owner now = .ok (run, task)

theorem passes_iff {db : Db} {runId : Nat} {owner : Owner} {now : Time} :
    Passes db runId owner now ↔ (db.queue.leaseOf runId).Admits owner now := by
  unfold Passes Queue.leaseOf
  simp only [lockOwner_eq_ok, ownedBy_iff]
  constructor
  · rintro ⟨run, task, found, ⟨lawful, held⟩, admitted⟩
    have located : db.queue.find runId = some (run, ⟨task, lawful⟩) :=
      find_eq_some.mpr ⟨found, held⟩
    rw [located]
    exact admitted
  · intro admitted
    cases located : db.queue.find runId with
    | none =>
      rw [located] at admitted
      obtain ⟨_, _, held, _⟩ := admitted
      cases held
    | some pair =>
      obtain ⟨found, held⟩ := find_eq_some.mp located
      rw [located] at admitted
      exact ⟨pair.1, pair.2.val, found, ⟨pair.2.property, held⟩, admitted⟩

/-! ### Every step -/

section

variable [Platform] {before after : World} {event : Event}

/-- Whatever happens, the lease of a run makes a move. -/
theorem World.Step.lease (reached : Reachable World.Step World.Initial before)
    (step : World.Step before event after) (runId : Nat) :
    Lease.Move before.clock (before.db.queue.leaseOf runId) (after.db.queue.leaseOf runId) := by
  unfold Queue.leaseOf
  rcases step.performs with same | ⟨transaction, performs⟩
  · rw [same]
    exact .kept
  cases perform_run (reachable_ordered reached) performs.done runId with
  | kept same =>
    rw [same]
    exact .kept
  | new absent present _ fresh =>
    rw [absent, present]
    show Lease.Move before.clock ⟨0, none⟩ (ModelExecutionTask.lease _)
    rw [fresh]
    exact .kept
  | turned _ present turn later =>
    rw [present, later]
    exact turn.lease performs.within

/-- A pair that had its turn and is shut out stays shut out, whatever happens. -/
theorem run_lapsed {first last : World} {history : List (Transition World Event)}
    (reached : Reachable World.Step World.Initial first)
    (run : Run World.Step first history last) {runId : Nat} {owner : Owner}
    (lapsed : (first.db.queue.leaseOf runId).Lapsed owner first.clock) :
    (last.db.queue.leaseOf runId).Lapsed owner last.clock := by
  induction run with
  | start => exact lapsed
  | next earlier taken inductionHypothesis =>
    exact inductionHypothesis.move (taken.lease (reached.extend earlier) runId) taken.clock_le

/-- The epoch of a run never goes back. -/
theorem run_epoch_le {first last : World} {history : List (Transition World Event)}
    (reached : Reachable World.Step World.Initial first)
    (run : Run World.Step first history last) (runId : Nat) :
    (first.db.queue.leaseOf runId).epoch ≤ (last.db.queue.leaseOf runId).epoch := by
  refine run.relates (fun before after =>
    (before.db.queue.leaseOf runId).epoch ≤ (after.db.queue.leaseOf runId).epoch)
    (fun _ => Nat.le_refl _) Nat.le_trans (fun before event after reached step => ?_) reached
  exact (step.lease reached runId).epoch_le

end

/-! ### The transactions of an owner -/

/-- The run and the owner that the transaction is made in the name of. -/
def Transaction.byOwner : Transaction → Option (Nat × Owner)
  | .heartbeat runId owner _ _ _ | .release runId owner _ _ _ _ | .finalize runId owner _ _ _ _
  | .attachOwner runId _ owner _ | .planTurn runId owner _ _ | .execute runId owner _ _ _
  | .abortOrQuery runId owner _ _ _ _ | .reserveCall runId owner _ _ _ _ _
  | .acceptCall runId owner _ _ _ _ _ | .publishOwned runId owner _ => some (runId, owner)
  | _ => none

section

variable [Platform] {db after : Db} {runId : Nat} {owner : Owner} {clock : Time}

/-- A transaction of an owner succeeds only while the owner passes the test. -/
theorem passes_of_done {transaction : Transaction}
    (byOwner : transaction.byOwner = some (runId, owner))
    (timely : Timely clock transaction.readings)
    (done : db.perform transaction = .ok after) : Passes db runId owner clock := by
  have sooner : ∀ now, clock ≤ now → Passes db runId owner now → Passes db runId owner clock :=
    fun now since passes => passes_iff.mpr ((passes_iff.mp passes).earlier since)
  cases transaction <;>
    first
    | cases byOwner
      simp only [Db.perform, map_eq_ok] at done
    | cases byOwner
  case heartbeat checked _ _ =>
    unfold heartbeat at done
    simp only [bind_eq_ok] at done
    obtain ⟨⟨run, task⟩, owned, _⟩ := done
    exact sooner checked timely.1 ⟨run, task, owned⟩
  case release checked _ _ =>
    unfold release at done
    simp only [bind_eq_ok] at done
    obtain ⟨⟨run, task⟩, owned, _⟩ := done
    exact sooner checked timely.1 ⟨run, task, owned⟩
  case finalize checked _ =>
    unfold finalize at done
    simp only [bind_eq_ok] at done
    obtain ⟨⟨run, task⟩, owned, _⟩ := done
    exact sooner checked timely.1 ⟨run, task, owned⟩
  case attachOwner now =>
    unfold attachOwner at done
    simp only [bind_eq_ok] at done
    obtain ⟨⟨run, task⟩, owned, _⟩ := done
    exact sooner now timely.1 ⟨run, task, owned⟩
  case planTurn now =>
    unfold planTurn at done
    simp only [bind_eq_ok] at done
    obtain ⟨⟨run, task⟩, owned, _⟩ := done
    exact sooner now timely.1 ⟨run, task, owned⟩
  case execute now _ =>
    obtain ⟨result, done, _⟩ := done
    unfold execute at done
    simp only [bind_eq_ok] at done
    obtain ⟨⟨run, task⟩, owned, _⟩ := done
    exact sooner now timely.1 ⟨run, task, owned⟩
  case abortOrQuery checked _ _ =>
    obtain ⟨result, done, _⟩ := done
    unfold abortOrQuery at done
    simp only [bind_eq_ok] at done
    obtain ⟨⟨run, task⟩, owned, _⟩ := done
    exact sooner checked timely.1 ⟨run, task, owned⟩
  case reserveCall checked _ =>
    obtain ⟨result, done, _⟩ := done
    unfold reserveCall at done
    simp only [bind_eq_ok] at done
    obtain ⟨_, _, ⟨run, task⟩, owned, _⟩ := done
    exact sooner checked timely.1 ⟨run, task, owned⟩
  case acceptCall now =>
    unfold acceptCall at done
    simp only [bind_eq_ok] at done
    obtain ⟨⟨run, task⟩, owned, _⟩ := done
    exact sooner now timely.1 ⟨run, task, owned⟩
  case publishOwned now =>
    obtain ⟨result, done, _⟩ := done
    unfold publishOwned at done
    simp only [bind_eq_ok] at done
    obtain ⟨⟨run, task⟩, owned, _⟩ := done
    exact sooner now timely.1 ⟨run, task, owned⟩

end

/-! ### The grants -/

/-- A claim that is answered with an owner grants the next epoch to it. -/
theorem claim_granted {db after : Db} {runId : Nat} {owner : Owner} {now : Time}
    (done : claim db runId now = .ok (after, some owner)) :
    owner.2 = (after.queue.leaseOf runId).epoch ∧
      (after.queue.leaseOf runId).epoch = (db.queue.leaseOf runId).epoch + 1 := by
  unfold claim at done
  simp only [bind_eq_ok, expect_eq_ok] at done
  obtain ⟨run, found, stored, held, rest⟩ := done
  obtain rfl : run.id = runId := Table.key_of_get found
  have located : db.queue.find run.id = some (run, stored) := find_eq_some.mpr ⟨found, held⟩
  obtain ⟨key, taskId, _⟩ := NegotiationInput.of_sent (claimDeadline_sent db run stored.val now)
  have refused : ∀ settled task, giveUp db settled task ≠ .ok (after, some owner) := by
    intro settled task given
    unfold giveUp at given
    simp only [bind_eq_ok, pure_eq_ok] at given
    obtain ⟨_, _, same⟩ := given
    cases (Prod.mk.inj same).2
  split at rest
  · split at rest
    · exact absurd rest (refused _ _)
    · split at rest
      · exact absurd rest (refused _ _)
      · unfold grant at rest
        simp only [bind_eq_ok, pure_eq_ok, saveTask_eq_ok] at rest
        obtain ⟨_, ⟨lawful, rfl⟩, same⟩ := rest
        obtain ⟨rfl, owned⟩ := Prod.mk.inj same
        obtain rfl := Option.some.inj owned
        let claimed : NegotiationInput :=
          { (claimDeadline db run stored.val now).1 with
            activeSince := some now
            activeUntil := some (claimDeadline db run stored.val now).2 }
        have later := find_put located (show claimed.id = run.id from key) taskId
          (show StoredTask.id ⟨_, lawful⟩ = stored.id from rfl)
        have before := leaseOf_of_find located
        have granted := leaseOf_of_find later
        refine ⟨?_, ?_⟩
        · refine Eq.trans ?_ (congrArg Lease.epoch granted).symm
          rfl
        · refine (congrArg Lease.epoch granted).trans ?_
          rw [before]
          rfl
  · cases (Prod.mk.inj ((pure_eq_ok _ _).mp rest)).2

/-! ### Cleanups -/

/-- The transaction ends the ownership of this instance. -/
def Transaction.ends (instanceId : Nat) : Transaction → Prop
  | .cleanupInstance target _ _ | .supervisorKill _ target _ _ => target = instanceId
  | _ => False

/-- Only the instance that holds the lease of a run ends it. -/
theorem Turn.of_ends {db : Db} {run changed : NegotiationInput} {task moved : ModelExecutionTask}
    {transaction : Transaction} {cursor instanceId : Nat}
    (turn : Turn db run task transaction changed moved cursor)
    (ends : transaction.ends instanceId) :
    ∃ record, db.instances.get instanceId = some record ∧
      record.leaseToken = task.leaseToken ∧ record.ownershipEpoch = some task.ownershipEpoch := by
  cases turn with
  | @cleaned record _ _ found owner =>
    obtain rfl : record.id = instanceId := ends
    exact ⟨record, found, owner.2⟩
  | @killed record _ _ found _ token epoch =>
    obtain rfl : record.id = instanceId := ends
    exact ⟨record, found, token, epoch⟩
  | _ => exact ends.elim

section

variable [Platform]

/-- Ending the ownership of an instance leaves a lease alone that the instance does not hold. -/
theorem World.Step.spares {before after : World} {transaction : Transaction} {runId : Nat}
    {owner : Owner} {now : Time} {record : GraphExecutionInstance}
    (reached : Reachable World.Step World.Initial before)
    (step : World.Step before (.call transaction) after) (ends : transaction.ends record.id)
    (recorded : before.db.instances.get record.id = some record)
    (passes : Passes before.db runId owner now)
    (other : record.leaseToken ≠ some owner.1 ∨ record.ownershipEpoch ≠ some owner.2) :
    after.db.queue.leaseOf runId = before.db.queue.leaseOf runId := by
  obtain ⟨run, task, owned⟩ := passes
  obtain ⟨found, ⟨lawful, held⟩, owned⟩ := lockOwner_eq_ok.mp owned
  have located : before.db.queue.find runId = some (run, ⟨task, lawful⟩) :=
    find_eq_some.mpr ⟨found, held⟩
  -- The instance that is ended does not hold the lease of the run.
  have apart : record.leaseToken = task.leaseToken →
      record.ownershipEpoch ≠ some task.ownershipEpoch := by
    obtain ⟨_, _, token, epoch, _⟩ := owned
    intro sameToken sameEpoch
    rcases other with differs | differs
    · exact differs (sameToken.trans token)
    · exact differs (sameEpoch.trans (congrArg some epoch))
  unfold Queue.leaseOf
  rcases step.called with idle | done
  · rw [idle]
  cases perform_run (reachable_ordered reached) done runId with
  | kept same => rw [same]
  | new absent => exact nomatch absent.symm.trans located
  | turned here present turn later =>
    obtain ⟨rfl, rfl⟩ := Prod.mk.inj (Option.some.inj (present.symm.trans located))
    obtain ⟨holder, held, token, epoch⟩ := turn.of_ends ends
    obtain rfl := Option.some.inj (held.symm.trans recorded)
    exact absurd epoch (apart token)

/-! ### Fencing -/

/-- Ownership is fenced. At any time one pair of a token and an epoch passes the test at most.
The epoch never goes back, and every grant counts it up and hands it out. A pair that passed
and does not pass any more never passes again, so that none of its transactions succeeds. And
ending the ownership of an instance leaves the lease of another owner alone. -/
theorem ownership_is_fenced {first last : World} {history : List (Transition World Event)}
    (reached : Reachable World.Step World.Initial first)
    (run : Run World.Step first history last) (runId : Nat) :
    (∀ one two now later, Passes last.db runId one now → Passes last.db runId two later →
      one = two) ∧
    (∀ transition ∈ history,
      (transition.before.db.queue.leaseOf runId).epoch ≤
          (transition.after.db.queue.leaseOf runId).epoch ∧
        (∀ owner later, transition.before.clock ≤ later →
          ¬ Passes transition.before.db runId owner transition.before.clock →
          Passes transition.after.db runId owner later →
          (transition.after.db.queue.leaseOf runId).epoch =
            (transition.before.db.queue.leaseOf runId).epoch + 1) ∧
        ∀ db owner now, claim transition.before.db runId now = .ok (db, some owner) →
          owner.2 = (db.queue.leaseOf runId).epoch ∧
            (db.queue.leaseOf runId).epoch =
              (transition.before.db.queue.leaseOf runId).epoch + 1) ∧
    (∀ owner, Passes first.db runId owner first.clock →
      ¬ Passes last.db runId owner last.clock → ∀ later final, Run World.Step last later final →
        (∀ now, final.clock ≤ now → ¬ Passes final.db runId owner now) ∧
        ∀ transaction : Transaction, transaction.byOwner = some (runId, owner) →
          Timely final.clock transaction.readings →
          ∀ after, final.db.perform transaction ≠ .ok after) ∧
    (∀ transition ∈ history, ∀ transaction record owner now,
      transition.event = .call transaction → transaction.ends record.id →
      transition.before.db.instances.get record.id = some record →
      Passes transition.before.db runId owner now →
      (record.leaseToken ≠ some owner.1 ∨ record.ownershipEpoch ≠ some owner.2) →
      transition.after.db.queue.leaseOf runId = transition.before.db.queue.leaseOf runId) := by
  refine ⟨?_, ?_, ?_, ?_⟩
  · intro one two now later passes other
    exact (passes_iff.mp passes).unique (passes_iff.mp other)
  · intro transition member
    have before := run.reachable_before reached member
    have move := (run.taken member).lease before runId
    refine ⟨move.epoch_le, fun owner later since out passes => ?_, fun db owner now done =>
      claim_granted done⟩
    exact move.begins since (fun admitted => out (passes_iff.mpr admitted)) (passes_iff.mp passes)
  · intro owner passes lost later final next
    have passed := passes_iff.mp passes
    have lapsed : (last.db.queue.leaseOf runId).Lapsed owner last.clock :=
      { reached := passed.1.le.trans (run_epoch_le reached run runId)
        out := fun admitted => lost (passes_iff.mpr admitted) }
    have gone := run_lapsed (reached.extend run) next lapsed
    have out : ∀ now, final.clock ≤ now → ¬ Passes final.db runId owner now :=
      fun now since passes => gone.out ((passes_iff.mp passes).earlier since)
    refine ⟨out, fun transaction byOwner timely after done => ?_⟩
    exact out final.clock le_rfl (passes_of_done byOwner timely done)
  · intro transition member transaction record owner now called ends recorded passes other
    have taken := run.taken member
    rw [called] at taken
    exact taken.spares (run.reachable_before reached member) ends recorded passes other

end

/-- The owner of the first input gives it back before it is answered. -/
def givenBack : List Event :=
  [.call (.release 1 (4, 1) false (seconds 2) (seconds 2) (seconds 2))]

/-- The first input is claimed again. -/
def reclaimed : List Event := [.call (.claim 1 (seconds 4))]

attribute [local instance] samplePlatform in
/-- The process that gave the first input back executes no command for it after the run was
claimed again. -/
theorem ownership_is_fenced_reclaimed :
    ¬ ∃ db, (((sampleWorld.after submission).after givenBack).after reclaimed).db.perform
      (.execute 1 (4, 1) 1 (seconds 5) none) = .ok db := by
  rintro ⟨db, performed⟩
  have reached : Reachable World.Step World.Initial (sampleWorld.after submission) :=
    World.reachable_after sampleWorld_initial (by decide +kernel)
  have run : Run World.Step (sampleWorld.after submission)
      ((sampleWorld.after submission).history [] givenBack)
      ((sampleWorld.after submission).after givenBack) :=
    World.run_history (.start _) (by decide +kernel)
  have next : Run World.Step ((sampleWorld.after submission).after givenBack)
      (((sampleWorld.after submission).after givenBack).history [] reclaimed)
      (((sampleWorld.after submission).after givenBack).after reclaimed) :=
    World.run_history (.start _) (by decide +kernel)
  have passes : Passes (sampleWorld.after submission).db 1 (4, 1)
      (sampleWorld.after submission).clock :=
    passes_iff.mpr ⟨by decide +kernel, seconds 31, by decide +kernel, by decide +kernel⟩
  have free : (((sampleWorld.after submission).after givenBack).db.queue.leaseOf 1).held = none := by
    decide +kernel
  have lost : ¬ Passes ((sampleWorld.after submission).after givenBack).db 1 (4, 1)
      ((sampleWorld.after submission).after givenBack).clock := by
    intro still
    obtain ⟨_, _, held, _⟩ := passes_iff.mp still
    exact nomatch free.symm.trans held
  have fenced := (ownership_is_fenced reached run 1).2.2.1 (4, 1) passes lost _ _ next
  exact fenced.2 (.execute 1 (4, 1) 1 (seconds 5) none) rfl (by decide +kernel) db performed

end Negotiation
