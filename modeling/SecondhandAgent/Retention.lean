/-
This file is about a bounded list of versioned entries. A new entry supersedes
those of its key, unless one that is still held is newer; superseded entries
stay in the list until they are pushed out of it. Within the list the current
entry of a key is its newest. Over a whole history it is so exactly as long as
no entry comes back for a key whose newer entries were pushed out.
-/

import Mathlib.Data.List.Basic
import Mathlib.Order.Lattice
import Mathlib.Order.Nat

namespace Store

/-- An entry that is held, and whether another one has superseded it. -/
structure Held (Entry : Type) where
  entry : Entry
  replaced : Bool := false
deriving DecidableEq

variable {Entry Key Version : Type} [LinearOrder Version]

/-! ### What is held -/

section

variable (key : Entry → Key) (version : Entry → Version)

/-- An entry is marked as replaced exactly if a later one of its key is held. -/
def Chained : List (Held Entry) → Prop
  | [] => True
  | first :: rest =>
    (first.replaced = true ↔ ∃ later ∈ rest, key later.entry = key first.entry) ∧ Chained rest

/-- The entries of a key stand in the order of their versions. -/
def Rising (held : List (Held Entry)) : Prop :=
  held.Pairwise fun one two => key one.entry = key two.entry → version one.entry ≤ version two.entry

/-- What holds of the list at any time. -/
structure WellHeld (held : List (Held Entry)) : Prop where
  chained : Chained key held
  rising : Rising key version held

/-- The current entry of a key is at least as new as every entry that was let in for it. -/
def Newest (held : List (Held Entry)) (accepted : List Entry) : Prop :=
  ∀ current ∈ held, current.replaced = false →
    ∀ old ∈ accepted, key old = key current.entry → version old ≤ version current.entry

/-- Of a key that is no longer held, entries come in only together with one that is as new as
each of those that were let in for it. -/
def Covers (held : List (Held Entry)) (accepted entries : List Entry) : Prop :=
  ∀ entry ∈ entries, (∀ old ∈ held, key old.entry ≠ key entry) →
    ∀ old ∈ accepted, key old = key entry →
      ∃ newer ∈ entries, key newer = key entry ∧ version old ≤ version newer

end

variable {key : Entry → Key} {version : Entry → Version} {held : List (Held Entry)}

theorem Chained.suffix {part : List (Held Entry)} (chained : Chained key held)
    (ends : part <:+ held) : Chained key part := by
  induction held with
  | nil => rw [List.suffix_nil.mp ends]; trivial
  | cons first rest inductionHypothesis =>
    rcases List.suffix_cons_iff.mp ends with rfl | shorter
    · exact chained
    · exact inductionHypothesis chained.2 shorter

namespace WellHeld

theorem nil : WellHeld key version [] := ⟨trivial, List.Pairwise.nil⟩

theorem suffix {part : List (Held Entry)} (wellHeld : WellHeld key version held)
    (ends : part <:+ held) : WellHeld key version part :=
  ⟨wellHeld.chained.suffix ends, wellHeld.rising.sublist ends.sublist⟩

/-- A key that is held has a current entry, which is as new as the held one. -/
theorem exists_current (wellHeld : WellHeld key version held) {old : Held Entry}
    (member : old ∈ held) :
    ∃ current ∈ held, current.replaced = false ∧ key current.entry = key old.entry ∧
      version old.entry ≤ version current.entry := by
  induction held generalizing old with
  | nil => exact absurd member List.not_mem_nil
  | cons first rest inductionHypothesis =>
    have others : WellHeld key version rest := wellHeld.suffix (List.suffix_cons first rest)
    rcases List.mem_cons.mp member with rfl | inRest
    · by_cases superseded : old.replaced = true
      · obtain ⟨later, inRest, same⟩ := wellHeld.chained.1.mp superseded
        obtain ⟨current, place, alive, its, newer⟩ := inductionHypothesis others inRest
        exact ⟨current, List.mem_cons_of_mem _ place, alive, its.trans same,
          (List.pairwise_cons.mp wellHeld.rising).1 current place (same.symm.trans its.symm)⟩
      · exact ⟨old, List.mem_cons_self, eq_false_of_ne_true superseded, rfl, le_refl _⟩
    · obtain ⟨current, place, rest⟩ := inductionHypothesis others inRest
      exact ⟨current, List.mem_cons_of_mem _ place, rest⟩

/-- The current entry of a key is the newest that is held. -/
theorem le_current (wellHeld : WellHeld key version held) {current old : Held Entry}
    (place : current ∈ held) (alive : current.replaced = false) (member : old ∈ held)
    (same : key old.entry = key current.entry) : version old.entry ≤ version current.entry := by
  induction held generalizing old with
  | nil => exact absurd member List.not_mem_nil
  | cons first rest inductionHypothesis =>
    have others : WellHeld key version rest := wellHeld.suffix (List.suffix_cons first rest)
    have rising := (List.pairwise_cons.mp wellHeld.rising).1
    rcases List.mem_cons.mp place with rfl | later
    · -- Nothing of the key comes after the current entry.
      rcases List.mem_cons.mp member with rfl | inRest
      · exact le_refl _
      · have marked := wellHeld.chained.1.mpr ⟨old, inRest, same⟩
        rw [alive] at marked
        exact absurd marked Bool.false_ne_true
    · rcases List.mem_cons.mp member with rfl | inRest
      · exact rising current later same
      · exact inductionHypothesis others later inRest same

end WellHeld

/-! ### The last places -/

/-- The last entries of a list. -/
def latest {Item : Type} (capacity : Nat) (items : List Item) : List Item :=
  items.drop (items.length - capacity)

theorem latest_suffix {Item : Type} (capacity : Nat) (items : List Item) :
    latest capacity items <:+ items := List.drop_suffix _ _

theorem length_latest_le {Item : Type} (capacity : Nat) (items : List Item) :
    (latest capacity items).length ≤ capacity := by
  unfold latest
  rw [List.length_drop]
  omega

section

variable [DecidableEq Key] (key : Entry → Key) (version : Entry → Version)

/-! ### Entries come in -/

/-- No held entry of the same key is newer. -/
def Admits (held : List (Held Entry)) (entry : Entry) : Prop :=
  ∀ old ∈ held, key old.entry = key entry → version old.entry ≤ version entry

instance (held : List (Held Entry)) (entry : Entry) : Decidable (Admits key version held entry) :=
  inferInstanceAs (Decidable (∀ old ∈ held, _))

/-- A held entry after another one of some key came in. -/
def supersede (entry : Entry) (old : Held Entry) : Held Entry :=
  if key old.entry = key entry then { old with replaced := true } else old

def hold (held : List (Held Entry)) (entry : Entry) : List (Held Entry) :=
  if Admits key version held entry then held.map (supersede key entry) ++ [⟨entry, false⟩] else held

def holdAll (held : List (Held Entry)) (entries : List Entry) : List (Held Entry) :=
  entries.foldl (hold key version) held

/-- The entries among these that are let in. -/
def taken (held : List (Held Entry)) : List Entry → List Entry
  | [] => []
  | entry :: rest =>
    if Admits key version held entry then entry :: taken (hold key version held entry) rest
    else taken (hold key version held entry) rest

end

variable [DecidableEq Key]

@[simp]
theorem supersede_entry (entry : Entry) (old : Held Entry) :
    (supersede key entry old).entry = old.entry := by
  unfold supersede
  split <;> rfl

theorem supersede_replaced (entry : Entry) (old : Held Entry) :
    (supersede key entry old).replaced = true ↔
      old.replaced = true ∨ key entry = key old.entry := by
  unfold supersede
  split
  case isTrue same => simp [same]
  case isFalse other => simp [Ne.symm other]

theorem map_hold (held : List (Held Entry)) (entry : Entry) :
    (hold key version held entry).map Held.entry =
      held.map Held.entry ++ (if Admits key version held entry then [entry] else []) := by
  unfold hold
  split
  · simp [Function.comp_def]
  · rw [List.append_nil]

variable (key version) in
/-- The held entries after all came in are those before, and then those that were let in. -/
theorem map_holdAll (held : List (Held Entry)) (entries : List Entry) :
    (holdAll key version held entries).map Held.entry =
      held.map Held.entry ++ taken key version held entries := by
  induction entries generalizing held with
  | nil => exact (List.append_nil _).symm
  | cons entry rest inductionHypothesis =>
    have later := inductionHypothesis (hold key version held entry)
    rw [map_hold] at later
    rw [holdAll, List.foldl_cons, ← holdAll, later, taken, List.append_assoc]
    split <;> rfl

theorem taken_sublist (held : List (Held Entry)) (entries : List Entry) :
    (taken key version held entries).Sublist entries := by
  induction entries generalizing held with
  | nil => exact List.Sublist.refl _
  | cons entry rest inductionHypothesis =>
    unfold taken
    split
    · exact (inductionHypothesis _).cons_cons entry
    · exact (inductionHypothesis _).cons entry

variable (key version) in
/-- An entry that comes in finds or leaves one of its key that is as new. -/
theorem exists_as_new (held : List (Held Entry)) {entries : List Entry} {entry : Entry}
    (member : entry ∈ entries) :
    ∃ other ∈ held.map Held.entry ++ taken key version held entries,
      key other = key entry ∧ version entry ≤ version other := by
  induction entries generalizing held with
  | nil => exact absurd member List.not_mem_nil
  | cons first rest inductionHypothesis =>
    rcases List.mem_cons.mp member with rfl | later
    · unfold taken
      by_cases admitted : Admits key version held entry
      · rw [if_pos admitted]
        exact ⟨entry, by simp, rfl, le_refl _⟩
      · unfold Admits at admitted
        push Not at admitted
        obtain ⟨old, isHeld, same, newer⟩ := admitted
        exact ⟨old.entry, List.mem_append_left _ (List.mem_map_of_mem isHeld), same, le_of_lt newer⟩
    · obtain ⟨other, place, same, newer⟩ := inductionHypothesis (hold key version held first) later
      refine ⟨other, ?_, same, newer⟩
      rw [map_hold] at place
      unfold taken
      split at place <;> split <;> simp_all

/-! ### The list keeps its shape -/

theorem Chained.append {entry : Entry} (chained : Chained key held) :
    Chained key (held.map (supersede key entry) ++ [⟨entry, false⟩]) := by
  induction held with
  | nil => simp [Chained]
  | cons first rest inductionHypothesis =>
    obtain ⟨marked, others⟩ := chained
    refine ⟨?_, inductionHypothesis others⟩
    rw [supersede_replaced, marked]
    simp

namespace WellHeld

theorem hold (wellHeld : WellHeld key version held) (entry : Entry) :
    WellHeld key version (hold key version held entry) := by
  unfold Store.hold
  split
  case isFalse => exact wellHeld
  case isTrue admitted =>
    refine ⟨wellHeld.chained.append, List.pairwise_append.mpr ⟨?_, List.pairwise_singleton _ _, ?_⟩⟩
    · exact List.pairwise_map.mpr (wellHeld.rising.imp fun {one two} rising => by simpa using rising)
    · intro old member other last
      obtain ⟨before, isHeld, rfl⟩ := List.mem_map.mp member
      rw [List.mem_singleton.mp last, supersede_entry]
      exact admitted before isHeld

theorem holdAll (wellHeld : WellHeld key version held) (entries : List Entry) :
    WellHeld key version (holdAll key version held entries) := by
  induction entries generalizing held with
  | nil => exact wellHeld
  | cons entry rest inductionHypothesis => exact inductionHypothesis (wellHeld.hold entry)

/-- A key has at most one current entry. -/
theorem filter_current_le (wellHeld : WellHeld key version held) (wanted : Key) :
    (held.filter fun old => decide (key old.entry = wanted) && !old.replaced).length ≤ 1 := by
  induction held with
  | nil => exact Nat.zero_le _
  | cons first rest inductionHypothesis =>
    have others := inductionHypothesis (wellHeld.suffix (List.suffix_cons first rest))
    rw [List.filter_cons]
    split
    case isFalse => exact others
    case isTrue current =>
      simp only [Bool.and_eq_true, decide_eq_true_eq, Bool.not_eq_true'] at current
      have none : rest.filter (fun old => decide (key old.entry = wanted) && !old.replaced) = [] := by
        refine List.filter_eq_nil_iff.mpr fun later member fits => ?_
        simp only [Bool.and_eq_true, decide_eq_true_eq] at fits
        have marked := wellHeld.chained.1.mpr ⟨later, member, fits.1.trans current.1.symm⟩
        rw [current.2] at marked
        exact absurd marked Bool.false_ne_true
      rw [none]
      exact Nat.le_refl 1

end WellHeld

/-! ### What a cut list forgets -/

section

variable {accepted entries : List Entry} {capacity : Nat}

/-- Everything that was let in is still held when the list is cut to at least as many places as
there were entries. -/
theorem mem_latest_of_taken (few : entries.length ≤ capacity) {entry : Entry}
    (member : entry ∈ taken key version held entries) :
    ∃ old ∈ latest capacity (holdAll key version held entries), old.entry = entry := by
  have count : (taken key version held entries).length ≤ capacity :=
    Nat.le_trans (taken_sublist held entries).length_le few
  have lengths := congrArg List.length (map_holdAll key version held entries)
  rw [List.length_map, List.length_append, List.length_map] at lengths
  have place : entry ∈ (latest capacity (holdAll key version held entries)).map Held.entry := by
    rw [latest, List.map_drop, map_holdAll, List.drop_append_of_le_length]
    · exact List.mem_append_right _ member
    · rw [List.length_map]
      omega
  exact List.mem_map.mp place

/-- The current entries are still the newest of all that were let in exactly if the entries that
came in covered the keys that were no longer held. -/
theorem newest_latest_iff (wellHeld : WellHeld key version held)
    (newest : Newest key version held accepted) (few : entries.length ≤ capacity) :
    Newest key version (latest capacity (holdAll key version held entries))
        (accepted ++ taken key version held entries) ↔
      Covers key version held accepted entries := by
  have ends := latest_suffix capacity (holdAll key version held entries)
  have whole := wellHeld.holdAll entries
  have among : ∀ {old : Held Entry}, old ∈ holdAll key version held entries →
      old.entry ∈ held.map Held.entry ++ taken key version held entries := fun {old} member => by
    rw [← map_holdAll]
    exact List.mem_map_of_mem member
  constructor
  · intro after entry comes gone old wasAccepted same
    obtain ⟨other, place, its, _⟩ := exists_as_new key version held comes
    -- The key is not held before, so its entries afterwards are among those that came in.
    have fresh : ∀ {found : Entry}, key found = key entry →
        found ∈ held.map Held.entry ++ taken key version held entries →
        found ∈ taken key version held entries := fun {found} named place => by
      rcases List.mem_append.mp place with isHeld | new
      · obtain ⟨before, member, rfl⟩ := List.mem_map.mp isHeld
        exact absurd named (gone before member)
      · exact new
    obtain ⟨kept, isKept, rfl⟩ := mem_latest_of_taken few (fresh its place)
    obtain ⟨current, stays, alive, named, _⟩ := (whole.suffix ends).exists_current isKept
    have named : key current.entry = key entry := named.trans its
    exact ⟨current.entry, (taken_sublist held entries).subset
        (fresh named (among (ends.subset stays))), named,
      after current stays alive old (List.mem_append_left _ wasAccepted) (same.trans named.symm)⟩
  · intro covers current stays alive old known same
    have place := ends.subset stays
    have highest : ∀ {other : Entry},
        other ∈ held.map Held.entry ++ taken key version held entries →
        key other = key current.entry → version other ≤ version current.entry :=
      fun {other} member named => by
        rw [← map_holdAll] at member
        obtain ⟨found, isHeld, rfl⟩ := List.mem_map.mp member
        exact whole.le_current place alive isHeld named
    rcases List.mem_append.mp known with before | new
    · by_cases isHeld : ∃ one ∈ held, key one.entry = key current.entry
      · obtain ⟨one, member, named⟩ := isHeld
        obtain ⟨top, member, lives, its, _⟩ := wellHeld.exists_current member
        have its : key top.entry = key current.entry := its.trans named
        calc version old
          _ ≤ version top.entry := newest top member lives old before (same.trans its.symm)
          _ ≤ version current.entry :=
            highest (List.mem_append_left _ (List.mem_map_of_mem member)) its
      · push Not at isHeld
        have came : current.entry ∈ entries := by
          rcases List.mem_append.mp (among place) with old | new
          · obtain ⟨one, member, equal⟩ := List.mem_map.mp old
            exact absurd (congrArg key equal) (isHeld one member)
          · exact (taken_sublist held entries).subset new
        obtain ⟨newer, comes, named, below⟩ := covers current.entry came isHeld old before same
        obtain ⟨other, member, its, above⟩ := exists_as_new key version held comes
        calc version old
          _ ≤ version newer := below
          _ ≤ version other := above
          _ ≤ version current.entry := highest member (its.trans named)
    · exact highest (List.mem_append_right _ new) same

end

end Store
