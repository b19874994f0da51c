/-
This file is a small theory of keyed tables: finite lists of rows in which no
two rows share a key. The uniqueness is a field of the structure, so a table
with a duplicate key cannot be built: `insert` refuses a key that is taken,
and `put` overwrites the row that has the key of the given one.
-/

import Mathlib.Data.List.Nodup
import Mathlib.Data.Option.Basic
import SecondhandAgent.Outcome

namespace Store

/-- The rows of one database table, with a primary key. -/
@[ext]
structure Table {Row Key : Type} (key : Row → Key) where
  rows : List Row
  unique : (rows.map key).Nodup

namespace Table

variable {Row Key Fault : Type} {key : Row → Key}

instance : Membership Row (Table key) := ⟨fun table row => row ∈ table.rows⟩

theorem mem_def (table : Table key) (row : Row) : row ∈ table ↔ row ∈ table.rows := Iff.rfl

/-- The table without rows. -/
def empty : Table key := ⟨[], List.nodup_nil⟩

@[simp]
theorem not_mem_empty (row : Row) : row ∉ (empty : Table key) := List.not_mem_nil

/-- Two rows of one table with the same key are the same row. -/
theorem eq_of_key {table : Table key} {first second : Row} (one : first ∈ table)
    (two : second ∈ table) (same : key first = key second) : first = second :=
  List.inj_on_of_nodup_map table.unique one two same

/-! ### Changing every row -/

/-- Change the rows without touching their keys. -/
def change (table : Table key) (change : Row → Row) (keeps : ∀ row, key (change row) = key row) :
    Table key where
  rows := table.rows.map change
  unique := by
    rw [List.map_map, show key ∘ change = key from funext keeps]
    exact table.unique

theorem mem_change {table : Table key} {changed : Row → Row}
    {keeps : ∀ row, key (changed row) = key row} {row : Row} :
    row ∈ table.change changed keeps ↔ ∃ old ∈ table, changed old = row := List.mem_map

/-! ### Looking a row up -/

variable [DecidableEq Key]

/-- The row with the given key. -/
def get (table : Table key) (wanted : Key) : Option Row :=
  table.rows.find? fun row => key row = wanted

theorem get_eq_some {table : Table key} {wanted : Key} {row : Row} :
    table.get wanted = some row ↔ row ∈ table ∧ key row = wanted := by
  constructor
  · intro found
    exact ⟨List.mem_of_find?_eq_some found, by simpa using List.find?_some found⟩
  · rintro ⟨member, rfl⟩
    cases result : table.get (key row) with
    | none =>
      have absent := List.find?_eq_none.mp result row member
      simp at absent
    | some other =>
      have otherMember : other ∈ table := List.mem_of_find?_eq_some result
      have sameKey : key other = key row := by simpa using List.find?_some result
      rw [eq_of_key otherMember member sameKey]

theorem get_eq_none {table : Table key} {wanted : Key} :
    table.get wanted = none ↔ ∀ row ∈ table, key row ≠ wanted := by
  simp [get, mem_def]

theorem mem_of_get {table : Table key} {wanted : Key} {row : Row}
    (found : table.get wanted = some row) : row ∈ table := (get_eq_some.mp found).1

theorem key_of_get {table : Table key} {wanted : Key} {row : Row}
    (found : table.get wanted = some row) : key row = wanted := (get_eq_some.mp found).2

theorem get_of_mem {table : Table key} {row : Row} (member : row ∈ table) :
    table.get (key row) = some row := get_eq_some.mpr ⟨member, rfl⟩

@[simp]
theorem get_empty (wanted : Key) : (empty : Table key).get wanted = none := rfl

/-! ### Overwriting a row -/

/-- Replace the row that has the key of `row`; a table without such a row is unchanged. -/
def put (table : Table key) (row : Row) : Table key where
  rows := table.rows.map fun old => if key old = key row then row else old
  unique := by
    have sameKeys : (table.rows.map fun old => if key old = key row then row else old).map key =
        table.rows.map key := by
      rw [List.map_map]
      refine List.map_congr_left fun old _ => ?_
      by_cases same : key old = key row <;> simp [same]
    rw [sameKeys]
    exact table.unique

theorem mem_put {table : Table key} {row other : Row} :
    other ∈ table.put row ↔
      (other ∈ table ∧ key other ≠ key row) ∨ (other = row ∧ ∃ old ∈ table, key old = key row) := by
  simp only [mem_def, put, List.mem_map]
  constructor
  · rintro ⟨old, member, rfl⟩
    by_cases same : key old = key row
    · rw [if_pos same]
      exact Or.inr ⟨rfl, old, member, same⟩
    · rw [if_neg same]
      exact Or.inl ⟨member, same⟩
  · rintro (⟨member, different⟩ | ⟨rfl, old, member, same⟩)
    · exact ⟨other, member, if_neg different⟩
    · exact ⟨old, member, if_pos same⟩

/-- A row that is written back under its key is in the table. -/
theorem mem_put_self {table : Table key} {old row : Row} (member : old ∈ table)
    (same : key old = key row) : row ∈ table.put row :=
  mem_put.mpr (Or.inr ⟨rfl, old, member, same⟩)

/-- The rows under other keys stay. -/
theorem mem_put_of_mem {table : Table key} {row other : Row} (member : other ∈ table)
    (different : key other ≠ key row) : other ∈ table.put row :=
  mem_put.mpr (Or.inl ⟨member, different⟩)

/-- A row of the overwritten table is a row of the old one or the new row. -/
theorem mem_of_mem_put {table : Table key} {row other : Row} (member : other ∈ table.put row) :
    other ∈ table ∨ other = row := by
  rcases mem_put.mp member with ⟨old, _⟩ | ⟨new, _⟩
  · exact Or.inl old
  · exact Or.inr new

/-- Of two rows written back under one key the second one counts. -/
theorem put_put {table : Table key} {first second : Row} (same : key second = key first) :
    (table.put first).put second = table.put second := by
  refine Table.ext ?_
  show (table.rows.map _).map _ = table.rows.map _
  rw [List.map_map]
  refine List.map_congr_left fun old _ => ?_
  by_cases here : key old = key first <;> simp [here, same]

/-- Writing a row of the table back changes nothing. -/
theorem put_of_mem {table : Table key} {row : Row} (member : row ∈ table) :
    table.put row = table := by
  refine Table.ext ?_
  refine (List.map_congr_left fun old found => ?_).trans (List.map_id _)
  by_cases same : key old = key row
  · rw [if_pos same]
    exact eq_of_key member found same.symm
  · exact if_neg same

theorem get_put {table : Table key} {row old : Row} {wanted : Key}
    (found : table.get (key row) = some old) :
    (table.put row).get wanted = if wanted = key row then some row else table.get wanted := by
  have present : ∃ old ∈ table, key old = key row := ⟨old, get_eq_some.mp found⟩
  by_cases same : wanted = key row
  · rw [if_pos same, get_eq_some, mem_put]
    exact ⟨Or.inr ⟨rfl, present⟩, same.symm⟩
  · rw [if_neg same]
    refine Option.ext fun other => ?_
    rw [get_eq_some, get_eq_some, mem_put]
    constructor
    · rintro ⟨⟨member, _⟩ | ⟨rfl, _⟩, keyed⟩
      · exact ⟨member, keyed⟩
      · exact absurd keyed.symm same
    · rintro ⟨member, rfl⟩
      exact ⟨Or.inl ⟨member, same⟩, rfl⟩

theorem get_put_ne {table : Table key} {row : Row} {wanted : Key} (different : wanted ≠ key row) :
    (table.put row).get wanted = table.get wanted := by
  refine Option.ext fun other => ?_
  rw [get_eq_some, get_eq_some, mem_put]
  constructor
  · rintro ⟨⟨member, _⟩ | ⟨rfl, _⟩, keyed⟩
    · exact ⟨member, keyed⟩
    · exact absurd keyed.symm different
  · rintro ⟨member, rfl⟩
    exact ⟨Or.inl ⟨member, different⟩, rfl⟩

/-! ### Removing a row -/

/-- The table without the row of the given key. -/
def remove (table : Table key) (wanted : Key) : Table key where
  rows := table.rows.filter fun row => key row ≠ wanted
  unique := table.unique.sublist (List.filter_sublist.map key)

theorem mem_remove {table : Table key} {wanted : Key} {row : Row} :
    row ∈ table.remove wanted ↔ row ∈ table ∧ key row ≠ wanted := by
  rw [mem_def, remove, List.mem_filter, decide_eq_true_iff, mem_def]

/-! ### Adding a row -/

/-- Add a row whose key is free. -/
def push (table : Table key) (row : Row) (free : table.get (key row) = none) : Table key where
  rows := row :: table.rows
  unique := by
    rw [List.map_cons, List.nodup_cons]
    refine ⟨fun taken => ?_, table.unique⟩
    obtain ⟨other, member, same⟩ := List.mem_map.mp taken
    exact get_eq_none.mp free other member same

theorem mem_push {table : Table key} {row other : Row} (free : table.get (key row) = none) :
    other ∈ table.push row free ↔ other = row ∨ other ∈ table := List.mem_cons

theorem push_congr {table other : Table key} {row : Row} (same : table = other)
    (free : table.get (key row) = none) (next : other.get (key row) = none) :
    table.push row free = other.push row next := by
  subst same
  rfl

/-- Writing a row back right after it was added is adding the changed row. -/
theorem put_push {table : Table key} {row changed : Row} (free : table.get (key row) = none)
    (same : key changed = key row) :
    ∃ next : table.get (key changed) = none,
      (table.push row free).put changed = table.push changed next := by
  have next : table.get (key changed) = none := same ▸ free
  refine ⟨next, ?_⟩
  have others : table.rows.map (fun old => if key old = key changed then changed else old) =
      table.rows := by
    refine (List.map_congr_left fun old member => ?_).trans (List.map_id _)
    exact if_neg (get_eq_none.mp next old member)
  unfold put push
  simp only [List.map_cons, others, if_pos same.symm]

theorem mem_push_self {table : Table key} {row : Row} (free : table.get (key row) = none) :
    row ∈ table.push row free := List.mem_cons_self

theorem mem_push_of_mem {table : Table key} {row other : Row}
    (free : table.get (key row) = none) (member : other ∈ table) : other ∈ table.push row free :=
  List.mem_cons_of_mem _ member

theorem get_push {table : Table key} {row : Row} {free : table.get (key row) = none}
    {wanted : Key} :
    (table.push row free).get wanted = if wanted = key row then some row else table.get wanted := by
  unfold get push
  rw [List.find?_cons]
  by_cases same : wanted = key row
  · simp [same]
  · simp [same, Ne.symm same]

/-- Add a row, or fail when its key is taken. -/
def insert (table : Table key) (row : Row) (fault : Fault) : Except Fault (Table key) :=
  if free : table.get (key row) = none then .ok (table.push row free) else .error fault

theorem insert_eq_ok {table result : Table key} {row : Row} {fault : Fault} :
    table.insert row fault = .ok result ↔
      ∃ free : table.get (key row) = none, result = table.push row free := by
  unfold insert
  by_cases free : table.get (key row) = none <;> simp [free, eq_comm]

theorem insert_eq_error {table : Table key} {row : Row} {fault other : Fault} :
    table.insert row fault = .error other ↔ table.get (key row) ≠ none ∧ fault = other := by
  unfold insert
  by_cases free : table.get (key row) = none <;> simp [free]

/-- What `insert` leaves: one more row, under a key that was free. -/
theorem mem_insert {table result : Table key} {row : Row} {fault : Fault}
    (inserted : table.insert row fault = .ok result) (other : Row) :
    other ∈ result ↔ other = row ∨ other ∈ table := by
  obtain ⟨free, rfl⟩ := insert_eq_ok.mp inserted
  exact mem_push free

theorem get_insert {table result : Table key} {row : Row} {fault : Fault}
    (inserted : table.insert row fault = .ok result) (wanted : Key) :
    result.get wanted = if wanted = key row then some row else table.get wanted := by
  obtain ⟨free, rfl⟩ := insert_eq_ok.mp inserted
  exact get_push

theorem free_of_insert {table result : Table key} {row : Row} {fault : Fault}
    (inserted : table.insert row fault = .ok result) : table.get (key row) = none :=
  (insert_eq_ok.mp inserted).1

/-- Add a row unless its key is taken: the insertion that ignores duplicates. -/
def insertIgnore (table : Table key) (row : Row) : Table key :=
  if free : table.get (key row) = none then table.push row free else table

theorem get_insertIgnore {table : Table key} {row : Row} {wanted : Key} :
    (table.insertIgnore row).get wanted =
      if wanted = key row ∧ table.get wanted = none then some row else table.get wanted := by
  unfold insertIgnore
  by_cases free : table.get (key row) = none
  · rw [dif_pos free, get_push]
    by_cases same : wanted = key row
    · rw [if_pos same, if_pos ⟨same, same ▸ free⟩]
    · rw [if_neg same, if_neg fun both => same both.1]
  · rw [dif_neg free, if_neg]
    rintro ⟨rfl, absent⟩
    exact free absent

theorem mem_insertIgnore {table : Table key} {row other : Row}
    (member : other ∈ table.insertIgnore row) : other = row ∨ other ∈ table := by
  unfold insertIgnore at member
  split at member
  · exact (mem_push _).mp member
  · exact Or.inr member

/-- An insertion that succeeds is one that has no duplicate to ignore. -/
theorem eq_insertIgnore {table result : Table key} {row : Row} {fault : Fault}
    (inserted : table.insert row fault = .ok result) : result = table.insertIgnore row := by
  obtain ⟨free, rfl⟩ := insert_eq_ok.mp inserted
  exact (dif_pos free).symm

/-- An insertion under a free key succeeds. -/
theorem insert_of_free {table : Table key} {row : Row} (free : table.get (key row) = none)
    (fault : Fault) : table.insert row fault = .ok (table.insertIgnore row) := by
  unfold insert insertIgnore
  rw [dif_pos free, dif_pos free]

/-- Writing a row back right after it was added is adding the changed row. -/
theorem put_insertIgnore {table : Table key} {row changed : Row}
    (free : table.get (key row) = none) (same : key changed = key row) :
    (table.insertIgnore row).put changed = table.insertIgnore changed := by
  obtain ⟨next, written⟩ := put_push free same
  unfold insertIgnore
  rw [dif_pos free, dif_pos next, written]

/-- A duplicate that is ignored changes nothing. -/
theorem insertIgnore_of_taken {table : Table key} {row : Row}
    (taken : table.get (key row) ≠ none) : table.insertIgnore row = table := dif_neg taken

theorem rows_insert {table result : Table key} {row : Row} {fault : Fault}
    (inserted : table.insert row fault = .ok result) : result.rows = row :: table.rows := by
  obtain ⟨_, rfl⟩ := insert_eq_ok.mp inserted
  rfl

theorem rows_insertIgnore {table : Table key} {row : Row} (free : table.get (key row) = none) :
    (table.insertIgnore row).rows = row :: table.rows := by
  unfold insertIgnore
  rw [dif_pos free]
  rfl

theorem mem_insertIgnore_self {table : Table key} {row : Row}
    (free : table.get (key row) = none) : row ∈ table.insertIgnore row := by
  unfold insertIgnore
  rw [dif_pos free]
  exact mem_push_self free

/-- A row that is present stays when duplicates are ignored. -/
theorem mem_insertIgnore_of_mem {table : Table key} {row other : Row} (member : other ∈ table) :
    other ∈ table.insertIgnore row := by
  unfold insertIgnore
  split
  · exact mem_push_of_mem _ member
  · exact member

/-! ### Keys below a bound -/

section

variable {Row : Type} {key : Row → Nat} {table : Table key} {bound higher : Nat}

/-- Every key of the table lies below the bound. -/
def Below (table : Table key) (bound : Nat) : Prop := ∀ row ∈ table, key row < bound

theorem Below.mono (below : Below table bound) (grown : bound ≤ higher) : Below table higher :=
  fun row member => Nat.lt_of_lt_of_le (below row member) grown

/-- The bound itself is free. -/
theorem Below.free (below : Below table bound) : table.get bound = none :=
  get_eq_none.mpr fun row member => Nat.ne_of_lt (below row member)

theorem below_empty (bound : Nat) : Below (empty : Table key) bound :=
  fun row member => absurd member (not_mem_empty row)

theorem Below.insertIgnore {row : Row} (below : Below table bound) (new : key row < bound) :
    Below (table.insertIgnore row) bound := by
  intro other member
  rcases mem_insertIgnore member with rfl | old
  · exact new
  · exact below other old

theorem Below.put {row : Row} (below : Below table bound) : Below (table.put row) bound := by
  intro other member
  rcases mem_put.mp member with ⟨old, _⟩ | ⟨rfl, row, old, same⟩
  · exact below other old
  · rw [← same]
    exact below row old

end

end Table

end Store
