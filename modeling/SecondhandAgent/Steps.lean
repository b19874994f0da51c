/-
This file reduces a step of the system to a transaction. Whatever the event is,
the database is left alone or one transaction is performed on it, with clock
readings between the old clock and the new one; a runner performs only the
transactions of its own kind. The clock never goes back.
-/

import SecondhandAgent.Frames

namespace Negotiation

open Store

/-! ### The clock -/

/-- Readings that do not go back end no earlier than they begin. -/
theorem le_getLastD_of_timely {clock : Time} {readings : List Time}
    (timely : Timely clock readings) : clock ≤ readings.getLastD clock := by
  induction readings generalizing clock with
  | nil => exact le_rfl
  | cons reading rest inductionHypothesis =>
    rw [List.getLastD_cons]
    exact timely.1.trans (inductionHypothesis timely.2)

/-- The readings of a transaction, between the clock before it and the clock after it. -/
structure Within (clock : Time) (readings : List Time) (later : Time) : Prop where
  timely : Timely clock readings
  ends : readings.getLastD clock ≤ later

theorem Within.le {clock later : Time} {readings : List Time}
    (within : Within clock readings later) : clock ≤ later :=
  (le_getLastD_of_timely within.timely).trans within.ends

theorem Within.one {clock reading later : Time} (within : Within clock [reading] later) :
    clock ≤ reading ∧ reading ≤ later :=
  ⟨within.timely.1, within.ends⟩

theorem Within.two {clock one two later : Time} (within : Within clock [one, two] later) :
    clock ≤ one ∧ one ≤ two ∧ two ≤ later :=
  ⟨within.timely.1, within.timely.2.1, within.ends⟩

theorem Within.three {clock one two three later : Time}
    (within : Within clock [one, two, three] later) :
    clock ≤ one ∧ one ≤ two ∧ two ≤ three ∧ three ≤ later :=
  ⟨within.timely.1, within.timely.2.1, within.timely.2.2.1, within.ends⟩

/-! ### The transactions of a runner -/

/-- The transactions a runner performs: those that only runners perform, and those on the
notice of its approval. -/
def Transaction.ByRunner : Transaction → Prop
  | .claimNotification _ _ | .publishNotified _ _ _ _ | .retryNotification _ _ _ => True
  | transaction => transaction.OfRunner

/-- The transactions that carry out no command and post no reply. -/
def Transaction.LeavesReplies : Transaction → Prop
  | .execute _ _ _ _ _ | .publishOwned _ _ _ => False
  | .publishNotified _ source _ _ => ∀ runId, source ≠ .turnReply runId
  | _ => True

section

variable [Platform]

/-- The database before and after a step of a runner. -/
def RunnerMoves (db after : Db) (now later : Time) : Prop :=
  after = db ∨ ∃ transaction : Transaction, db.perform transaction = .ok after ∧
    transaction.ByRunner ∧
      (transaction.readings = [now] ∨ transaction.readings = [now, later])

/-- A runner carries out no command, and what it publishes is the notice of its approval. -/
def RunnerActs (db after : Db) (now later : Time) : Prop :=
  after = db ∨ ∃ transaction : Transaction, db.perform transaction = .ok after ∧
    (transaction.ByRunner ∧ transaction.LeavesReplies) ∧
      (transaction.readings = [now] ∨ transaction.readings = [now, later])

theorem RunnerActs.moves {db after : Db} {now later : Time} (acts : RunnerActs db after now later) :
    RunnerMoves db after now later := by
  rcases acts with same | ⟨transaction, done, ⟨byRunner, _⟩, readings⟩
  · exact .inl same
  · exact .inr ⟨transaction, done, byRunner, readings⟩

theorem runNode_acts {db : Db} {thread : Checkpoint} {runner : Runner} {resume : Option EventId}
    {now later : Time} {fault : Option FaultPoint} {next : Advance}
    (done : runNode db thread runner resume now fault = .ok next) :
    RunnerActs db next.db now later := by
  unfold runNode at done
  split at done
  · obtain rfl := (pure_eq_ok _ _).mp done
    exact .inl rfl
  · obtain rfl := (pure_eq_ok _ _).mp done
    exact .inl rfl
  · simp only [bind_eq_ok, pure_eq_ok] at done
    obtain ⟨event, _, rfl⟩ := done
    exact .inl rfl
  · split at done <;> obtain rfl := (pure_eq_ok _ _).mp done <;> exact .inl rfl
  · simp only [bind_eq_ok, pure_eq_ok] at done
    obtain ⟨event, _, ⟨applied, result⟩, performed, rfl⟩ := done
    exact .inr ⟨.applyApproval runner.approvalId event runner.owner now fault,
      (map_eq_ok _ _ _).mpr ⟨_, performed, rfl⟩, ⟨trivial, trivial⟩, .inl rfl⟩
  · simp only [bind_eq_ok] at done
    obtain ⟨item, _, rest⟩ := done
    split at rest
    · obtain rfl := (pure_eq_ok _ _).mp rest
      exact .inl rfl
    · simp only [bind_eq_ok] at rest
      obtain ⟨⟨claimed, token⟩, performed, rest⟩ := rest
      refine .inr ⟨.claimNotification (noticeSource runner.approvalId thread.result) now,
        (map_eq_ok _ _ _).mpr ⟨_, performed, ?_⟩, ⟨trivial, trivial⟩, .inl rfl⟩
      cases token <;> obtain rfl := (pure_eq_ok _ _).mp rest <;> rfl

theorem advance_acts {db : Db} {thread : Checkpoint} {runner : Runner} {now later : Time}
    {fault : Option FaultPoint} {next : Advance}
    (done : advance db thread runner now later fault = .ok next) :
    RunnerActs db next.db now later := by
  unfold advance at done
  dsimp only at done
  split at done
  · simp only [bind_eq_ok, pure_eq_ok] at done
    obtain ⟨reconciled, performed, rfl⟩ := done
    exact .inr ⟨.reconcile runner.approvalId now, performed, ⟨trivial, trivial⟩, .inl rfl⟩
  · unfold inspect at done
    simp only [bind_eq_ok, pure_eq_ok] at done
    obtain ⟨execution, _, _, _, rfl⟩ := done
    exact .inl rfl
  · obtain rfl := (pure_eq_ok _ _).mp done
    exact .inl rfl
  · simp only [bind_eq_ok, pure_eq_ok] at done
    obtain ⟨marked, performed, rfl⟩ := done
    exact .inr ⟨.acknowledge runner.approvalId _ runner.owner now, performed, ⟨trivial, trivial⟩,
      .inl rfl⟩
  · obtain rfl := (pure_eq_ok _ _).mp done
    refine .inl ?_
    unfold decideEntry
    dsimp only
    split
    · rfl
    · split <;> rfl
  · unfold resumeEntry at done
    simp only [bind_eq_ok] at done
    obtain ⟨event, _, rest⟩ := done
    refine .inl ?_
    split at rest
    · split at rest <;> obtain rfl := (pure_eq_ok _ _).mp rest <;> rfl
    · obtain rfl := (pure_eq_ok _ _).mp rest
      rfl
  · exact runNode_acts done
  · obtain rfl := (pure_eq_ok _ _).mp done
    exact .inl rfl
  · simp only [bind_eq_ok, pure_eq_ok] at done
    obtain ⟨⟨published, messageId⟩, performed, rfl⟩ := done
    exact .inr ⟨.publishNotified none _ _ now, (map_eq_ok _ _ _).mpr ⟨_, performed, rfl⟩,
      ⟨trivial, fun _ => SourceId.noConfusion⟩, .inl rfl⟩
  · simp only [bind_eq_ok, pure_eq_ok] at done
    obtain ⟨retried, performed, rfl⟩ := done
    exact .inr ⟨.retryNotification _ _ now, performed, ⟨trivial, trivial⟩, .inl rfl⟩
  · obtain rfl := (pure_eq_ok _ _).mp done
    exact .inl rfl
  · obtain rfl := (pure_eq_ok _ _).mp done
    exact .inl rfl
  · obtain rfl := (pure_eq_ok _ _).mp done
    exact .inl rfl
  · simp only [bind_eq_ok, pure_eq_ok] at done
    obtain ⟨marked, performed, rfl⟩ := done
    exact .inr ⟨.acknowledge runner.approvalId _ runner.owner now, performed, ⟨trivial, trivial⟩,
      .inl rfl⟩
  · simp only [bind_eq_ok, pure_eq_ok] at done
    obtain ⟨released, performed, rfl⟩ := done
    exact .inr ⟨.releaseExecution runner.approvalId runner.owner _ false false now later, performed,
      ⟨trivial, trivial⟩, .inr rfl⟩
  · simp only [bind_eq_ok, pure_eq_ok] at done
    obtain ⟨released, performed, rfl⟩ := done
    exact .inr ⟨.releaseExecution runner.approvalId runner.owner _ true _ now later, performed,
      ⟨trivial, trivial⟩, .inr rfl⟩

theorem advance_moves {db : Db} {thread : Checkpoint} {runner : Runner} {now later : Time}
    {fault : Option FaultPoint} {next : Advance}
    (done : advance db thread runner now later fault = .ok next) :
    RunnerMoves db next.db now later := (advance_acts done).moves

/-! ### Every step -/

/-- The transaction a step performs on the database. -/
structure Performs (before : World) (event : Event) (after : World) (transaction : Transaction) :
    Prop where
  done : before.db.perform transaction = .ok after.db
  source : event = .call transaction ∨ transaction.ByRunner
  within : Within before.clock transaction.readings after.clock

omit [Platform] in
theorem setStage_db (world : World) (runner : Runner) (stage : Option Stage) :
    (world.setStage runner stage).db = world.db := by
  cases stage <;> rfl

omit [Platform] in
theorem addRunner_db (world : World) (approvalId : Nat) (now : Time) :
    (world.addRunner approvalId now).db = (claimExecution world.db approvalId now).1 := by
  unfold World.addRunner
  split <;> next claimed => rw [claimed]

theorem stepRunner_moves (world : World) (runner : Runner) (now later : Time)
    (fault : Option FaultPoint) :
    RunnerMoves world.db (world.stepRunner runner now later fault).db now later := by
  unfold World.stepRunner
  split
  · next advanced =>
    rw [setStage_db]
    exact advance_moves advanced
  · rw [setStage_db]
    exact .inl rfl

/-- A call leaves the database alone or performs its transaction. -/
theorem World.Step.called {before after : World} {transaction : Transaction}
    (step : World.Step before (.call transaction) after) :
    after.db = before.db ∨ before.db.perform transaction = .ok after.db := by
  obtain ⟨_, _, rfl⟩ := step
  show (before.settleTransaction transaction).db = _ ∨
    _ = Except.ok (before.settleTransaction transaction).db
  unfold World.settleTransaction
  cases before.db.perform transaction with
  | error fault => exact .inl rfl
  | ok db => exact .inr rfl

/-- A step leaves the database alone or performs one transaction on it. -/
theorem World.Step.performs {before after : World} {event : Event}
    (step : World.Step before event after) :
    after.db = before.db ∨ ∃ transaction, Performs before event after transaction := by
  have stepped := step
  obtain ⟨timely, allowed, rfl⟩ := step
  cases event with
  | call transaction =>
    rcases stepped.called with idle | done
    · exact .inl idle
    · exact .inr ⟨transaction, done, .inl rfl, timely, le_rfl⟩
  | runnerClaim approvalId now =>
    refine .inr ⟨.claimExecution approvalId now, ?_, .inr trivial, timely, le_rfl⟩
    show Except.ok _ = Except.ok (before.addRunner approvalId now).db
    rw [addRunner_db]
  | runnerStep token now later fault =>
    cases found : before.runners.get token with
    | none =>
      refine .inl ?_
      show (before.react _).db = _
      unfold World.react
      simp only [found]
    | some runner =>
      have same : (before.next (.runnerStep token now later fault)).db =
          (before.stepRunner runner now later fault).db := by
        show (before.react _).db = _
        unfold World.react
        simp only [found]
      rw [same]
      rcases stepRunner_moves before runner now later fault with
        idle | ⟨transaction, done, kind, readings⟩
      · exact .inl idle
      · refine .inr ⟨transaction, by rw [same]; exact done, .inr kind, ?_⟩
        show Within before.clock transaction.readings later
        rcases readings with one | two
        · rw [one]
          exact ⟨⟨timely.1, trivial⟩, timely.2.1⟩
        · rw [two]
          exact ⟨timely, le_rfl⟩
  | runnerRaise token =>
    refine .inl ?_
    show (before.react _).db = _
    unfold World.react
    dsimp only
    split
    · rfl
    · exact setStage_db _ _ _
  | runnerCrash token =>
    refine .inl ?_
    show (before.react _).db = _
    unfold World.react
    dsimp only
    split <;> rfl

/-- The clock never goes back. -/
theorem World.Step.clock_le {before after : World} {event : Event}
    (step : World.Step before event after) : before.clock ≤ after.clock := by
  obtain ⟨timely, _, rfl⟩ := step
  exact le_getLastD_of_timely timely

/-- A property of the database that every transaction keeps holds of every reachable state. -/
theorem database_invariant (holds : Db → Prop)
    (begins : ∀ world, World.Initial world → holds world.db)
    (kept : ∀ db transaction after, holds db → db.perform transaction = .ok after → holds after)
    {world : World} (reached : Reachable World.Step World.Initial world) : holds world.db := by
  refine reached.invariant (fun world => holds world.db) begins fun before event after held step => ?_
  rcases step.performs with same | ⟨transaction, performs⟩
  · rw [same]
    exact held
  · exact kept _ _ _ held performs.done

/-- The same for a property that also speaks of the clock. -/
theorem timed_invariant (holds : Time → Db → Prop)
    (begins : ∀ world, World.Initial world → holds world.clock world.db)
    (waits : ∀ clock later db, clock ≤ later → holds clock db → holds later db)
    (kept : ∀ clock later db transaction after, holds clock db →
      db.perform transaction = .ok after → Within clock transaction.readings later →
      holds later after)
    {world : World} (reached : Reachable World.Step World.Initial world) :
    holds world.clock world.db := by
  refine reached.invariant (fun world => holds world.clock world.db) begins
    fun before event after held step => ?_
  rcases step.performs with same | ⟨transaction, performs⟩
  · rw [same]
    exact waits _ _ _ step.clock_le held
  · exact kept _ _ _ _ _ held performs.done performs.within

end

end Negotiation
