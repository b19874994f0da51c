/-
This file follows the closing window of a run, the last fifteen seconds in which
it may be wound up without a model. Four operations can open it and each reads
other fields: the theorems say what has to be used up for it to open, that it is
final once it is open, and that neither a lease nor a model call gets past it.
-/

import SecondhandAgent.Calls

namespace Negotiation

open Store

/-! ### What is used up -/

/-- What ran out by an instant, and when: the active time, which ends a lease that was granted
for it or is noticed at the instant itself, or the time for the reply. -/
inductive UsedUp (db : Db) (run : NegotiationInput) (now : Time) : Time → Prop
  | budget {since : Time} (begun : run.activeSince = some since) (left : remaining run now = 0) :
      UsedUp db run now (since + (run.config.active - run.activeMs * 1000))
  | noticed (left : remaining run now = 0) : UsedUp db run now now
  | reply {delivery : NotificationDelivery} (found : db.reply run.id = some delivery)
      (passed : delivery.replyDeadline ≤ now) : UsedUp db run now delivery.replyDeadline

section

variable {db : Db} {run : NegotiationInput} {now closing : Time}

/-- A time that is used up has passed. -/
theorem add_sub_le_of_used {since active spent elapsed now : Nat}
    (used : active - (spent + elapsed) * 1000 = 0) (early : since ≤ now)
    (bounded : elapsed * 1000 ≤ now - since) : since + (active - spent * 1000) ≤ now := by
  omega

/-- What was used up has ended. -/
theorem UsedUp.le {end_ : Time} (used : UsedUp db run now end_)
    (begun : ∀ since, run.activeSince = some since → since ≤ now) : end_ ≤ now := by
  cases used with
  | @budget since active left =>
    have early := begun since active
    unfold remaining usedMs at left
    rw [active] at left
    refine add_sub_le_of_used left early ?_
    split
    · next _ limit same _ =>
      obtain rfl := Option.some.inj same
      exact (Nat.div_mul_le_self _ _).trans (Nat.sub_le_sub_right (min_le_left now limit) _)
    · exact Nat.zero_le _
  | noticed => exact le_rfl
  | reply _ passed => exact passed

theorem remaining_settle (run : NegotiationInput) (now : Time) :
    remaining (settle run now) now = remaining run now := rfl

theorem settle_opens (closed : run.closingDeadline = none)
    (opened : (settle run now).closingDeadline = some closing) :
    ∃ end_, UsedUp db run now end_ ∧ closing = end_ + closingWindow := by
  unfold settle at opened
  dsimp only at opened
  split at opened
  · next since begun =>
    split at opened
    · next used =>
      exact ⟨_, .budget begun used.2, (Option.some.inj opened).symm⟩
    · rw [closed] at opened
      cases opened
  · rw [closed] at opened
    cases opened

theorem leaseDeadline_closed (db : Db) (now : Time)
    (frozen : run.closingDeadline = some closing) :
    leaseDeadline db run now = (run, min (now + seconds 30) closing) := by
  unfold leaseDeadline
  rw [frozen]

/-- An activity that is over has used something up. -/
theorem activityEnd_usedUp (passed : activityEnd db run now ≤ now) :
    UsedUp db run now (activityEnd db run now) := by
  have noticed (spent : now + remaining run now ≤ now) :
      UsedUp db run now (now + remaining run now) := by
    have left : remaining run now = 0 := Nat.le_zero.mp (Nat.le_of_add_le_add_left spent)
    rw [left]
    exact .noticed left
  unfold activityEnd at passed ⊢
  split
  · next delivery found =>
    rw [found] at passed
    dsimp only at passed
    rcases le_total delivery.replyDeadline (now + remaining run now) with first | last
    · rw [min_eq_right first] at passed ⊢
      exact .reply found passed
    · rw [min_eq_left last] at passed ⊢
      exact noticed passed
  · next silent =>
    rw [silent] at passed
    exact noticed passed

theorem leaseDeadline_opens (closed : run.closingDeadline = none)
    (opened : (leaseDeadline db run now).1.closingDeadline = some closing) :
    ∃ end_, UsedUp db run now end_ ∧ closing = end_ + closingWindow := by
  unfold leaseDeadline at opened
  rw [closed] at opened
  dsimp only at opened
  split at opened
  · next passed =>
    refine ⟨_, ?_, (Option.some.inj opened).symm⟩
    exact activityEnd_usedUp passed
  · rw [closed] at opened
    cases opened

theorem claimDeadline_opens {task : ModelExecutionTask} (closed : run.closingDeadline = none)
    (opened : (claimDeadline db run task now).1.closingDeadline = some closing) :
    ∃ end_, UsedUp db run now end_ ∧ closing = end_ + closingWindow := by
  cases settled : (settle run now).closingDeadline with
  | some early =>
    have kept := leaseDeadline_closed db now settled
    have same : (claimDeadline db run task now).1 = settle run now := congrArg Prod.fst kept
    rw [same, settled] at opened
    obtain rfl := Option.some.inj opened
    exact settle_opens closed settled
  | none =>
    obtain ⟨end_, used, rfl⟩ := leaseDeadline_opens settled opened
    refine ⟨end_, ?_, rfl⟩
    cases used with
    | budget begun => cases begun
    | noticed left => exact .noticed (remaining_settle run now ▸ left)
    | reply found passed => exact .reply found passed

variable {task moved : ModelExecutionTask} {changed : NegotiationInput}
variable {transaction : Transaction} {cursor : Nat}

/-- What a window that opens in a turn ends with was used up. -/
theorem Turn.opens (turn : Turn db run task transaction changed moved cursor)
    (closed : run.closingDeadline = none) (opened : changed.closingDeadline = some closing) :
    ∃ now ∈ transaction.readings, ∃ end_, UsedUp db run now end_ ∧
      closing = end_ + closingWindow := by
  cases turn with
  | gaveUp | granted => exact ⟨_, List.mem_cons_self, claimDeadline_opens closed opened⟩
  | released | finalized | cleaned | killed =>
    refine ⟨_, ?_, settle_opens closed opened⟩
    simp only [Transaction.readings, List.mem_cons, true_or, or_true]
  | extended =>
    refine ⟨_, ?_, leaseDeadline_opens closed opened⟩
    simp only [Transaction.readings, List.mem_cons, true_or, or_true]
  | recovered =>
    have same : run.closingDeadline = some closing := opened
    rw [closed] at same
    cases same

end

/-! ### Model calls -/

section

variable [Platform] {db after : Db}

omit [Platform] in
theorem Timely.mem {clock reading : Time} {readings : List Time} (timely : Timely clock readings)
    (member : reading ∈ readings) : clock ≤ reading ∧ reading ≤ readings.getLastD clock := by
  induction readings generalizing clock with
  | nil => exact absurd member List.not_mem_nil
  | cons first rest inductionHypothesis =>
    rw [List.getLastD_cons]
    rcases List.mem_cons.mp member with rfl | later
    · exact ⟨timely.1, le_getLastD_of_timely timely.2⟩
    · obtain ⟨early, late⟩ := inductionHypothesis timely.2 later
      exact ⟨timely.1.trans early, late⟩

omit [Platform] in
/-- The clock reads between the states what it reads during the transaction. -/
theorem Within.mem {clock reading later : Time} {readings : List Time}
    (within : Within clock readings later) (member : reading ∈ readings) :
    clock ≤ reading ∧ reading ≤ later := by
  obtain ⟨early, late⟩ := within.timely.mem member
  exact ⟨early, late.trans within.ends⟩

omit [Platform] in
theorem Ordered.located (ordered : Ordered db.queue) {run : NegotiationInput}
    (member : run ∈ db.inputs) : ∃ stored, db.queue.find run.id = some (run, stored) := by
  obtain ⟨stored, tasked⟩ := Option.ne_none_iff_exists'.mp (ordered.tasked run member)
  exact ⟨stored, find_eq_some.mpr ⟨Table.get_of_mem member, tasked⟩⟩

omit [Platform] in
theorem leaseDeadline_activeSince (db : Db) (run : NegotiationInput) (now : Time) :
    (leaseDeadline db run now).1.activeSince = run.activeSince := by
  unfold leaseDeadline
  split
  · rfl
  · dsimp only
    split <;> rfl

omit [Platform] in
/-- A run is active since a claim of it. -/
theorem Turn.activeSince {run changed : NegotiationInput} {task moved : ModelExecutionTask}
    {transaction : Transaction} {cursor : Nat} {since : Time}
    (turn : Turn db run task transaction changed moved cursor)
    (begun : changed.activeSince = some since) :
    run.activeSince = some since ∨ since ∈ transaction.readings := by
  cases turn with
  | gaveUp =>
    have same : (leaseDeadline db (settle run _) _).1.activeSince = some since := begun
    rw [leaseDeadline_activeSince] at same
    cases same
  | granted =>
    obtain rfl := Option.some.inj begun
    exact .inr List.mem_cons_self
  | released | finalized | cleaned | killed => cases begun
  | extended =>
    have same : (leaseDeadline db run _).1.activeSince = some since := begun
    rw [leaseDeadline_activeSince] at same
    exact .inl same
  | recovered => exact .inl begun

omit [Platform] in
/-- The window of the run is open and ends then. -/
def Closes (runId : Nat) (closing : Time) (world : World) : Prop :=
  ∃ run, world.db.inputs.get runId = some run ∧ run.closingDeadline = some closing

end

end Negotiation
