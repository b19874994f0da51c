/-
This file packages simulation between two labelled transition systems. A system
whose every step is a step of a more abstract one, under the label its event
has there, or leaves the abstract state alone, has runs that are runs of the
abstract system, with the labels in their order.
-/

import SecondhandAgent.Runs

namespace Store

section

variable {State Event Abstract Label : Type} {step : State → Event → State → Prop}
variable {initial : State → Prop} {first last : State}
variable {history : List (Transition State Event)}

/-- What a step is seen as: nothing, or a step under the label of its event. -/
def Seen (view : State → Abstract) (label : Event → Option Label)
    (move : Abstract → Label → Abstract → Prop) (before : State) (event : Event)
    (after : State) : Prop :=
  view after = view before ∨
    ∃ named, label event = some named ∧ move (view before) named (view after)

/-- The labels of a history, newest first. -/
def labels (label : Event → Option Label) (history : List (Transition State Event)) :
    List Label :=
  history.filterMap fun transition => label transition.event

/-- Each step is seen, so the run is: its moves are a run of the abstract system, and their
labels are those of some of the events, in their order. -/
theorem Run.seen (view : State → Abstract) (label : Event → Option Label)
    (move : Abstract → Label → Abstract → Prop)
    (each : ∀ before event after, Reachable step initial before → step before event after →
      Seen view label move before event after)
    (reached : Reachable step initial first) (run : Run step first history last) :
    ∃ moves, Run move (view first) moves (view last) ∧
      (moves.map (·.event)).Sublist (labels label history) := by
  induction run with
  | start => exact ⟨[], .start _, .refl _⟩
  | @next middle last history event earlier taken inductionHypothesis =>
    obtain ⟨moves, abstract, ordered⟩ := inductionHypothesis
    have grown : (labels label history).Sublist
        (labels label (⟨middle, event, last⟩ :: history)) :=
      (List.sublist_cons_self _ history).filterMap _
    rcases each _ _ _ (reached.extend earlier) taken with same | ⟨named, known, moved⟩
    · exact ⟨moves, same ▸ abstract, ordered.trans grown⟩
    · refine ⟨_ :: moves, abstract.next moved, ?_⟩
      have told : labels label (⟨middle, event, last⟩ :: history) =
          named :: labels label history := List.filterMap_cons_some known
      rw [told]
      exact ordered.cons_cons named

end

end Store
