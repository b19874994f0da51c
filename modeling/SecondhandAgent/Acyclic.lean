/-
This file arranges finitely many things that need each other without a cycle:
they can be listed so that each stands behind everything it needs, since one of
them is needed by no other and can stand last.
-/

import Mathlib.Order.WellFoundedSet
import Mathlib.Logic.Relation

namespace Store

open Relation

variable {Key : Type} {needs : Key → Key → Prop} {keys : List Key}

/-- Nothing needs itself, however indirectly. -/
def Acyclic (needs : Key → Key → Prop) : Prop := ∀ key, ¬ TransGen needs key key

/-- Each key stands behind everything it needs. -/
def Layered (needs : Key → Key → Prop) (keys : List Key) : Prop :=
  ∀ before key after, keys = before ++ key :: after → ∀ other, needs key other → other ∈ before

/-- Among finitely many keys there is one that no other needs. -/
theorem Acyclic.exists_top (acyclic : Acyclic needs) (nonempty : keys ≠ []) :
    ∃ top ∈ keys, ∀ key ∈ keys, ¬ needs key top := by
  have : IsStrictOrder Key (TransGen needs) :=
    { irrefl := acyclic, trans := fun _ _ _ => TransGen.trans }
  have founded : Set.WellFoundedOn {key | key ∈ keys} (TransGen needs) :=
    (List.finite_toSet keys).wellFoundedOn
  obtain ⟨first, member⟩ := List.exists_mem_of_ne_nil keys nonempty
  obtain ⟨⟨top, here⟩, -, least⟩ :=
    WellFounded.has_min founded Set.univ ⟨⟨first, member⟩, trivial⟩
  exact ⟨top, here, fun key among need => least ⟨key, among⟩ trivial (.single need)⟩

/-- Keys that need only each other can be listed with each behind what it needs. -/
theorem Acyclic.exists_layered [DecidableEq Key] (acyclic : Acyclic needs)
    (closed : ∀ key ∈ keys, ∀ other, needs key other → other ∈ keys) :
    ∃ layered : List Key, layered.Perm keys ∧ Layered needs layered := by
  induction length : keys.length generalizing keys with
  | zero =>
    obtain rfl := List.length_eq_zero_iff.mp length
    refine ⟨[], .refl [], fun before key after split => ?_⟩
    exact absurd split.symm (List.append_ne_nil_of_right_ne_nil _ (List.cons_ne_nil _ _))
  | succ count inductionHypothesis =>
    have nonempty : keys ≠ [] := fun empty => by simp [empty] at length
    obtain ⟨top, member, unneeded⟩ := acyclic.exists_top nonempty
    have closedRest : ∀ key ∈ keys.erase top, ∀ other, needs key other →
        other ∈ keys.erase top := by
      intro key among other need
      have here := List.mem_of_mem_erase among
      have different : other ≠ top := fun same => unneeded key here (same ▸ need)
      exact (List.mem_erase_of_ne different).mpr (closed key here other need)
    have shorter : (keys.erase top).length = count := by
      rw [List.length_erase_of_mem member, length, Nat.add_sub_cancel]
    obtain ⟨layered, perm, behind⟩ := inductionHypothesis closedRest shorter
    have whole : (layered ++ [top]).Perm keys :=
      (List.perm_append_singleton top layered).trans
        ((perm.cons top).trans (List.perm_cons_erase member).symm)
    refine ⟨layered ++ [top], whole, fun before key after split other need => ?_⟩
    rcases List.eq_nil_or_concat after with rfl | ⟨rest, last, rfl⟩
    · -- the last one: what it needs is among the others
      obtain ⟨rfl, same⟩ := List.append_inj' split rfl
      obtain rfl : top = key := (List.cons.inj same).1
      have among := whole.mem_iff.mpr (closed top member other need)
      rcases List.mem_append.mp among with earlier | itself
      · exact earlier
      · obtain rfl := List.mem_singleton.mp itself
        exact absurd (.single need) (acyclic other)
    · rw [List.concat_eq_append, ← List.cons_append, ← List.append_assoc] at split
      exact behind before key rest (List.append_inj' split rfl).1 other need

end Store
