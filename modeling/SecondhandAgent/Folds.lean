/-
This file says what holds behind a fold over a list whose steps may fail: a
property of the items so far and of the state that every step keeps holds in
the end, and where it makes every step succeed the fold succeeds.
-/

import Mathlib.Data.List.Basic

namespace Store

variable {State Item Failure : Type} {step : State → Item → Except Failure State}

/-- What every step keeps holds where the fold ends. -/
theorem foldlM_keeps (holds : List Item → State → Prop) {items before : List Item}
    {state last : State}
    (each : ∀ before, ∀ item ∈ items, ∀ state next, holds before state →
      step state item = .ok next → holds (before ++ [item]) next)
    (begins : holds before state) (done : items.foldlM step state = .ok last) :
    holds (before ++ items) last := by
  induction items generalizing before state with
  | nil =>
    obtain rfl : state = last := by simpa [pure, Except.pure] using done
    simpa using begins
  | cons item rest inductionHypothesis =>
    rw [List.foldlM_cons] at done
    cases first : step state item with
    | error failure => simp [first, bind, Except.bind] at done
    | ok middle =>
      rw [first] at done
      have later := inductionHypothesis
        (fun before item member => each before item (List.mem_cons_of_mem _ member))
        (each before item List.mem_cons_self state middle begins first) done
      simpa using later

variable (step) in
/-- A fold succeeds if what holds before a step makes it succeed and holds behind it. -/
theorem foldlM_succeeds (holds : List Item → State → Prop) (items : List Item)
    {before : List Item} {state : State}
    (each : ∀ before, ∀ item ∈ items, ∀ state, holds before state →
      ∃ next, step state item = .ok next ∧ holds (before ++ [item]) next)
    (begins : holds before state) :
    ∃ last, items.foldlM step state = .ok last := by
  induction items generalizing before state with
  | nil => exact ⟨state, rfl⟩
  | cons item rest inductionHypothesis =>
    obtain ⟨middle, first, holds⟩ := each before item List.mem_cons_self state begins
    obtain ⟨last, others⟩ := inductionHypothesis
      (fun before item member => each before item (List.mem_cons_of_mem _ member)) holds
    exact ⟨last, by rw [List.foldlM_cons, first]; exact others⟩

end Store
