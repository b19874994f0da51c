/-
This file is about tables whose rows carry a running number: the numbers begin
with one and leave no gap, and no two rows share one. A new row takes the next
number, and a row that is written back keeps its own. What is left behind a
cursor into the numbers is then as many rows as there are numbers behind it.
-/

import Mathlib.Data.Finset.Card
import Mathlib.Order.Interval.Finset.Nat
import SecondhandAgent.Table

namespace Store

namespace Table

variable {Row Key : Type} {key : Row → Key}

/-- The rows are numbered from one up to `next`, which is the first number that is free. -/
structure Numbered (table : Table key) (number : Row → Nat) (next : Nat) : Prop where
  positive : 0 < next
  within : ∀ row ∈ table, 0 < number row ∧ number row < next
  once : ∀ one ∈ table, ∀ two ∈ table, number one = number two → one = two
  all : ∀ place, 0 < place → place < next → ∃ row ∈ table, number row = place

namespace Numbered

variable {table : Table key} {number : Row → Nat} {next : Nat}

theorem empty : (Table.empty : Table key).Numbered number 1 where
  positive := Nat.one_pos
  within _ member := absurd member (not_mem_empty _)
  once _ member := absurd member (not_mem_empty _)
  all _ positive small := absurd positive (by omega)

/-- Every number that was given out belongs to exactly one row. -/
theorem existsUnique (numbered : table.Numbered number next) {place : Nat} (positive : 0 < place)
    (small : place < next) : ∃! row, row ∈ table ∧ number row = place := by
  obtain ⟨row, member, same⟩ := numbered.all place positive small
  refine ⟨row, ⟨member, same⟩, ?_⟩
  rintro other ⟨otherMember, otherSame⟩
  exact numbered.once other otherMember row member (otherSame.trans same.symm)

/-- The rows behind a cursor are at most the numbers behind it. -/
theorem length_le (numbered : table.Numbered number next) (cursor : Nat) :
    (table.rows.filter fun row => cursor < number row).length ≤ next - cursor - 1 := by
  have nodup : ((table.rows.filter fun row => cursor < number row).map number).Nodup := by
    refine List.Nodup.map_on ?_ (table.unique.of_map.filter _)
    intro one first two second same
    exact numbered.once one (List.mem_filter.mp first).1 two (List.mem_filter.mp second).1 same
  have inside : ((table.rows.filter fun row => cursor < number row).map number).toFinset ⊆
      Finset.Ioo cursor next := by
    intro place member
    obtain ⟨row, found, rfl⟩ := List.mem_map.mp (List.mem_toFinset.mp member)
    obtain ⟨present, ahead⟩ := List.mem_filter.mp found
    exact Finset.mem_Ioo.mpr ⟨of_decide_eq_true ahead, (numbered.within row present).2⟩
  calc (table.rows.filter fun row => cursor < number row).length
      = ((table.rows.filter fun row => cursor < number row).map number).toFinset.card := by
        rw [List.toFinset_card_of_nodup nodup, List.length_map]
    _ ≤ (Finset.Ioo cursor next).card := Finset.card_le_card inside
    _ = next - cursor - 1 := Nat.card_Ioo cursor next

variable [DecidableEq Key]

/-- A new row takes the next number. -/
theorem push (numbered : table.Numbered number next) {row : Row}
    (free : table.get (key row) = none) (same : number row = next) :
    (table.push row free).Numbered number (next + 1) where
  positive := Nat.succ_pos next
  within other member := by
    rcases (mem_push free).mp member with rfl | old
    · have positive := numbered.positive
      omega
    · obtain ⟨positive, small⟩ := numbered.within other old
      exact ⟨positive, by omega⟩
  once one first two second equal := by
    rcases (mem_push free).mp first with rfl | oneOld <;>
      rcases (mem_push free).mp second with rfl | twoOld
    · rfl
    · have small := (numbered.within two twoOld).2
      omega
    · have small := (numbered.within one oneOld).2
      omega
    · exact numbered.once one oneOld two twoOld equal
  all place positive small := by
    by_cases last : place = next
    · exact ⟨row, mem_push_self free, same.trans last.symm⟩
    · obtain ⟨old, member, equal⟩ := numbered.all place positive (by omega)
      exact ⟨old, mem_push_of_mem free member, equal⟩

/-- A row that is written back keeps its number. -/
theorem put (numbered : table.Numbered number next) {old row : Row} (member : old ∈ table)
    (sameKey : key row = key old) (same : number row = number old) :
    (table.put row).Numbered number next where
  positive := numbered.positive
  within other found := by
    rcases mem_of_mem_put found with present | rfl
    · exact numbered.within other present
    · rw [same]
      exact numbered.within old member
  once one first two second equal := by
    rcases mem_put.mp first with ⟨oneOld, oneKey⟩ | ⟨rfl, _⟩ <;>
      rcases mem_put.mp second with ⟨twoOld, twoKey⟩ | ⟨rfl, _⟩
    · exact numbered.once one oneOld two twoOld equal
    · have clash := numbered.once one oneOld old member (equal.trans same)
      exact absurd (clash ▸ sameKey.symm) oneKey
    · have clash := numbered.once two twoOld old member (equal.symm.trans same)
      exact absurd (clash ▸ sameKey.symm) twoKey
    · rfl
  all place positive small := by
    obtain ⟨row', found, equal⟩ := numbered.all place positive small
    by_cases here : key row' = key row
    · obtain rfl := eq_of_key found member (here.trans sameKey)
      exact ⟨row, mem_put_self found here, same.trans equal⟩
    · exact ⟨row', mem_put_of_mem found here, equal⟩

end Numbered

end Table

end Store
