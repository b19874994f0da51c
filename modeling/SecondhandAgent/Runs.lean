/-
This file packages the inductions over the runs of a labelled transition
system. A run carries its history, newest transition first, so that a theorem
can speak of what happened before a state was reached and not only of the
state. Every safety theorem of the later files is one of the lemmas below and
a statement about a single step.
-/

import Mathlib.Data.List.Basic

namespace Store

/-- One transition of a run, with the states around it. -/
structure Transition (State Event : Type) where
  before : State
  event : Event
  after : State

section

variable {State Event : Type} (step : State → Event → State → Prop)

/-- `Run step first history last`: the transitions of `history` lead from `first` to
`last`; the newest one is the head of the list. -/
inductive Run : State → List (Transition State Event) → State → Prop
  | start (state : State) : Run state [] state
  | next {first middle last : State} {history : List (Transition State Event)} {event : Event}
      (earlier : Run first history middle) (taken : step middle event last) :
      Run first (⟨middle, event, last⟩ :: history) last

/-- The states some run from an initial state reaches. -/
def Reachable (initial : State → Prop) (state : State) : Prop :=
  ∃ first history, initial first ∧ Run step first history state

end

section

variable {State Event : Type} {step : State → Event → State → Prop} {initial : State → Prop}
variable {first middle last state : State} {history later : List (Transition State Event)}

theorem Reachable.start (begins : initial state) : Reachable step initial state :=
  ⟨state, [], begins, .start state⟩

theorem Reachable.next {event : Event} (reached : Reachable step initial state)
    (taken : step state event last) : Reachable step initial last := by
  obtain ⟨origin, past, begins, run⟩ := reached
  exact ⟨origin, _, begins, run.next taken⟩

theorem Reachable.extend (reached : Reachable step initial state)
    (run : Run step state history last) : Reachable step initial last := by
  induction run with
  | start => exact reached
  | next _ taken inductionHypothesis => exact inductionHypothesis.next taken

/-- A property of the initial states that every step keeps holds of every reachable state. -/
theorem Reachable.invariant (holds : State → Prop)
    (begins : ∀ state, initial state → holds state)
    (kept : ∀ before event after, holds before → step before event after → holds after)
    (reached : Reachable step initial state) : holds state := by
  obtain ⟨origin, past, start, run⟩ := reached
  induction run with
  | start => exact begins _ start
  | next _ taken inductionHypothesis => exact kept _ _ _ inductionHypothesis taken

/-- A reflexive and transitive relation that every step from a reachable state is in relates
the ends of every run from a reachable state. -/
theorem Run.relates (related : State → State → Prop) (refl : ∀ state, related state state)
    (trans : ∀ {one two three}, related one two → related two three → related one three)
    (each : ∀ before event after, Reachable step initial before → step before event after →
      related before after)
    (reached : Reachable step initial first) (run : Run step first history last) :
    related first last := by
  induction run with
  | start => exact refl _
  | next earlier taken inductionHypothesis =>
    exact trans inductionHypothesis (each _ _ _ (reached.extend earlier) taken)

/-- Every transition of a run was a step, and splits the run in two. -/
theorem Run.split {transition : Transition State Event} (run : Run step first history last)
    (member : transition ∈ history) :
    ∃ after before, history = after ++ transition :: before ∧
      Run step first before transition.before ∧
      step transition.before transition.event transition.after ∧
      Run step transition.after after last := by
  induction run with
  | start => cases member
  | next earlier taken inductionHypothesis =>
    rcases List.mem_cons.mp member with rfl | old
    · exact ⟨[], _, rfl, earlier, taken, .start _⟩
    · obtain ⟨after, before, rfl, left, middleStep, right⟩ := inductionHypothesis old
      exact ⟨_ :: after, before, rfl, left, middleStep, right.next taken⟩

/-- Before every transition of a run from a reachable state the state was reachable. -/
theorem Run.reachable_before {transition : Transition State Event}
    (run : Run step first history last) (reached : Reachable step initial first)
    (member : transition ∈ history) : Reachable step initial transition.before := by
  obtain ⟨_, _, _, left, _, _⟩ := run.split member
  exact reached.extend left

/-- A transition of a run is a step of the system. -/
theorem Run.taken {transition : Transition State Event} (run : Run step first history last)
    (member : transition ∈ history) :
    step transition.before transition.event transition.after := by
  obtain ⟨_, _, _, _, taken, _⟩ := run.split member
  exact taken

/-- What every step keeps, a run keeps. -/
theorem Run.kept {marked : State → Prop}
    (stays : ∀ before event after, step before event after → marked before → marked after)
    (run : Run step first history last) (set : marked first) : marked last := by
  induction run with
  | start => exact set
  | next _ taken inductionHypothesis => exact stays _ _ _ taken inductionHypothesis

/-- A run from a state with an invariant is a run of steps from states with it. -/
theorem Run.within {invariant : State → Prop}
    (stays : ∀ before event after, step before event after → invariant before → invariant after)
    (run : Run step first history last) (begins : invariant first) :
    Run (fun before event after => invariant before ∧ step before event after)
      first history last := by
  induction run with
  | start => exact .start _
  | next earlier taken inductionHypothesis =>
    exact inductionHypothesis.next ⟨earlier.kept stays begins, taken⟩

/-- Once a mark is set it stays set, and no transition that sets it starts where it is set:
then at most one transition of a run sets it. -/
theorem Run.at_most_once (marked : State → Prop) {sets : Transition State Event → Prop}
    [DecidablePred sets]
    (stays : ∀ before event after, step before event after → marked before → marked after)
    (leaves : ∀ before event after, step before event after → sets ⟨before, event, after⟩ →
      ¬ marked before ∧ marked after)
    (run : Run step first history last) :
    history.countP (fun transition => sets transition) ≤ 1 ∧
      (¬ marked last → history.countP (fun transition => sets transition) = 0) ∧
      (marked first → history.countP (fun transition => sets transition) = 0) := by
  induction run with
  | start => simp
  | @next middle last history event earlier taken inductionHypothesis =>
    obtain ⟨atMost, unmarked, before⟩ := inductionHypothesis
    rw [List.countP_cons]
    by_cases now : sets ⟨middle, event, last⟩
    · obtain ⟨fresh, set⟩ := leaves _ _ _ taken now
      have none := unmarked fresh
      refine ⟨by simp [none, now], fun absent => absurd set absent, fun start => ?_⟩
      exact absurd (earlier.kept stays start) fresh
    · refine ⟨by simpa [now] using atMost, fun absent => ?_, fun start => by
        simpa [now] using before start⟩
      simpa [now] using unmarked fun set => absent (stays _ _ _ taken set)

end

end Store
