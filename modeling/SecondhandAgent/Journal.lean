/-
This file is a small theory of journals. Every commit moves a version by one or
leaves it, and the entries it writes are stamped with the interval it moved the
version over. Read in the order of the commits, the intervals that moved the
version are the steps from the first version to the present one, without a gap
and without an overlap; entries of one commit repeat its interval. Like the
rows of a table, the newest entry is the head of the list.
-/

import Mathlib.Data.List.Dedup
import Mathlib.Data.List.Range

namespace Store

variable {Entry : Type} {interval : Entry → Nat × Nat}

/-- The entries of a commit that moves the version from `before` to `after`. -/
structure Commit (interval : Entry → Nat × Nat) (written : List Entry) (before after : Nat) :
    Prop where
  moves : after = before ∨ after = before + 1
  stamped : ∀ entry ∈ written, interval entry = (before, after)
  recorded : after ≠ before → written ≠ []

namespace Commit

/-- A commit that writes nothing leaves the version. -/
theorem idle (version : Nat) : Commit interval [] version version :=
  ⟨.inl rfl, fun _ member => absurd member List.not_mem_nil, fun moved => absurd rfl moved⟩

/-- The intervals of a commit that moved the version. -/
theorem moved {written : List Entry} {before after : Nat}
    (commit : Commit interval written before after) :
    (written.reverse.map interval).filter (fun step => step.1 ≠ step.2) =
      if after = before then [] else List.replicate written.length (before, before + 1) := by
  have same : written.reverse.map interval = List.replicate written.length (before, after) := by
    refine List.eq_replicate_iff.mpr ⟨by rw [List.length_map, List.length_reverse], ?_⟩
    intro step member
    obtain ⟨entry, present, rfl⟩ := List.mem_map.mp member
    exact commit.stamped entry (List.mem_reverse.mp present)
  rw [same]
  rcases commit.moves with rfl | rfl
  · rw [if_pos rfl, List.filter_replicate_of_neg]
    simp
  · rw [if_neg (Nat.succ_ne_self before), List.filter_replicate_of_pos]
    simp

end Commit

/-- A journal that was opened at the version `start` and stands at another one now. -/
inductive Journal (interval : Entry → Nat × Nat) (start : Nat) : List Entry → Nat → Prop
  | opened : Journal interval start [] start
  | commit {entries written : List Entry} {before after : Nat}
      (earlier : Journal interval start entries before)
      (commit : Commit interval written before after) :
      Journal interval start (written ++ entries) after

/-- Copies of a new value at the end of a list count once. -/
theorem dedup_append_replicate {Value : Type} [DecidableEq Value] {list : List Value}
    {value : Value} {count : Nat} (absent : value ∉ list) (some : count ≠ 0) :
    (list ++ List.replicate count value).dedup = list.dedup ++ [value] := by
  induction list with
  | nil => exact List.replicate_dedup some
  | cons head rest inductionHypothesis =>
    obtain ⟨different, missing⟩ := List.ne_and_not_mem_of_not_mem_cons absent
    have later := inductionHypothesis missing
    rw [List.cons_append]
    by_cases again : head ∈ rest
    · rw [List.dedup_cons_of_mem (List.mem_append_left _ again), List.dedup_cons_of_mem again, later]
    · have fresh : head ∉ rest ++ List.replicate count value := by
        intro member
        rcases List.mem_append.mp member with old | copy
        · exact again old
        · exact different (List.eq_of_mem_replicate copy).symm
      rw [List.dedup_cons_of_notMem fresh, List.dedup_cons_of_notMem again, later, List.cons_append]

namespace Journal

variable {start version : Nat} {entries : List Entry}

theorem start_le (journal : Journal interval start entries version) : start ≤ version := by
  induction journal with
  | opened => exact Nat.le_refl _
  | commit _ commit inductionHypothesis => rcases commit.moves with same | next <;> omega

/-- The intervals that moved the version lead from the first version to the present one, step
by step. -/
theorem chain (journal : Journal interval start entries version) :
    ((entries.reverse.map interval).filter fun step => step.1 ≠ step.2).dedup =
      (List.range' start (version - start)).map fun place => (place, place + 1) := by
  induction journal with
  | opened => simp
  | @commit entries written before after earlier commit inductionHypothesis =>
    rw [List.reverse_append, List.map_append, List.filter_append, commit.moved]
    rcases commit.moves with rfl | rfl
    · rw [if_pos rfl, List.append_nil]
      exact inductionHypothesis
    · have fresh : (before, before + 1) ∉
          (entries.reverse.map interval).filter fun step => step.1 ≠ step.2 := by
        intro member
        rw [← List.mem_dedup, inductionHypothesis, List.mem_map] at member
        obtain ⟨place, range, same⟩ := member
        have le := earlier.start_le
        have bound := (List.mem_range'_1.mp range).2
        have here : place = before := congrArg Prod.fst same
        omega
      have nonempty : written.length ≠ 0 := fun empty =>
        commit.recorded (Nat.succ_ne_self before) (List.length_eq_zero_iff.mp empty)
      have grown : before + 1 - start = before - start + 1 := Nat.sub_add_comm earlier.start_le
      rw [if_neg (Nat.succ_ne_self before), dedup_append_replicate fresh nonempty,
        inductionHypothesis, grown, List.range'_1_concat, List.map_append, List.map_singleton,
        Nat.add_sub_cancel' earlier.start_le]

end Journal

end Store
