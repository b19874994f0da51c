/-
This file is about all the places where a pattern matches a text. A pattern that
takes a certain character at most as its last one does not look beyond it: in a
text that is put together behind such a character it finds what it finds in the
two parts.
-/

import SecondhandAgent.Regex
import Mathlib.Data.List.Basic

namespace Regex

/-! ### Places of a text -/

/-- The letters that stand for a letter when case is ignored. -/
def caseVariants (char : Char) : List Char :=
  [char.toLower, char.toUpper] ++
    match char.toLower with
    | 'i' => ['\u0130', '\u0131']
    | 'k' => ['\u212a']
    | 's' => ['\u017f']
    | _ => []

def CharSet.foldCase : CharSet → CharSet
  | one char => if char.isAlpha then among (caseVariants char) else one char
  | among chars => among (chars.flatMap fun char => if char.isAlpha then caseVariants char else [char])
  | any => any
  | digit => digit
  | space => space
  | except chars => except chars

/-- `re.IGNORECASE`, for patterns whose classes with `^` have no letters. -/
def Pattern.foldCase : Pattern → Pattern
  | empty => empty
  | atEnd => atEnd
  | char accepted => char accepted.foldCase
  | seq first second => seq first.foldCase second.foldCase
  | alt first second => alt first.foldCase second.foldCase
  | group index body => group index body.foldCase
  | times body least most greedy => times body.foldCase least most greedy

/-- `re.finditer` for a pattern that takes at least one character: where each match begins and where
it ends. -/
def spansChars (pattern : Pattern) : Nat → Nat → List Char → List (Nat × Nat)
  | 0, _, _ => []
  | fuel + 1, offset, text =>
    match searchChars pattern text with
    | none => []
    | some (before, found) =>
      let start := offset + before.length
      (start, start + found.taken.length) ::
        spansChars pattern fuel (start + found.taken.length) found.rest

def spans (pattern : Pattern) (text : List Char) : List (Nat × Nat) :=
  spansChars pattern text.length 0 text

/-- A place in a text that stands behind another one. -/
def shift (count : Nat) (span : Nat × Nat) : Nat × Nat := (count + span.1, count + span.2)

/-! ### Patterns that stop at a character -/

/-- The pattern never takes the character, and does not ask for the end. -/
def Pattern.inner (stop : Char) : Pattern → Bool
  | empty => true
  | atEnd => false
  | char accepted => !accepted.accepts stop
  | seq first second | alt first second => first.inner stop && second.inner stop
  | group _ _ => false
  | times body _ _ _ => body.inner stop

/-- The pattern takes the character at most at its end. -/
def Pattern.final (stop : Char) : Pattern → Bool
  | empty => true
  | atEnd => true
  | char _ => true
  | seq first second =>
    first.inner stop && second.final stop || first.final stop && decide (second = empty)
  | alt first second => first.final stop && second.final stop
  | group _ _ => false
  | times body _ _ _ => body.inner stop

/-- The pattern takes at least one character. -/
def Pattern.takes : Pattern → Bool
  | empty => false
  | atEnd => false
  | char _ => true
  | seq first second => first.takes || second.takes
  | alt first second => first.takes && second.takes
  | group _ body => body.takes
  | times body least _ _ => decide (0 < least) && body.takes

/-- The text goes on. -/
def Progress.extend (more : List Char) (progress : Progress) : Progress :=
  { progress with rest := progress.rest ++ more }

/-- What the step does does not depend on what stands behind the character. -/
def Blind (stop : Char) (step : Progress → List Progress) : Prop :=
  ∀ text more groups, step ⟨text ++ stop :: more, groups⟩ =
    (step ⟨text ++ [stop], groups⟩).map (Progress.extend more)

/-- The step does not even take the character. -/
structure Stops (stop : Char) (step : Progress → List Progress) : Prop where
  blind : Blind stop step
  keeps : ∀ text groups, ∀ next ∈ step ⟨text ++ [stop], groups⟩,
    ∃ left, next.rest = left ++ [stop] ∧ left.length ≤ text.length

variable {stop : Char} {step other : Progress → List Progress}

theorem Progress.extend_stop (text more : List Char) (groups : List (Nat × List Char)) :
    (⟨text ++ stop :: more, groups⟩ : Progress) =
      Progress.extend more ⟨text ++ [stop], groups⟩ := by
  unfold extend
  rw [List.append_assoc, List.singleton_append]

theorem Stops.at {text : List Char} (stops : Stops stop step) (more : List Char)
    {progress : Progress} (here : progress.rest = text ++ [stop]) :
    step (progress.extend more) = (step progress).map (Progress.extend more) := by
  obtain ⟨rest, groups⟩ := progress
  dsimp only at here
  rw [here, ← Progress.extend_stop, stops.blind]

theorem Stops.then (first : Stops stop step) {second : Progress → List Progress}
    (blind : Blind stop second) : Blind stop fun progress => (step progress).flatMap second := by
  intro text more groups
  dsimp only
  rw [first.blind, List.flatMap_map, List.map_flatMap]
  refine List.flatMap_congr fun next member => ?_
  obtain ⟨left, here, _⟩ := first.keeps text groups next member
  obtain ⟨rest, taken⟩ := next
  dsimp only at here
  rw [here, ← Progress.extend_stop, blind]

theorem Stops.flatMap (first : Stops stop step) (second : Stops stop other) :
    Stops stop fun progress => (step progress).flatMap other where
  blind := first.then second.blind
  keeps text groups next member := by
    obtain ⟨middle, inFirst, inSecond⟩ := List.mem_flatMap.mp member
    obtain ⟨left, here, shorter⟩ := first.keeps text groups middle inFirst
    obtain ⟨rest, taken⟩ := middle
    dsimp only at here
    subst here
    obtain ⟨last, there, less⟩ := second.keeps left taken next inSecond
    exact ⟨last, there, Nat.le_trans less shorter⟩

theorem Stops.append (first : Stops stop step) (second : Stops stop other) :
    Stops stop fun progress => step progress ++ other progress where
  blind text more groups := by
    dsimp only
    rw [first.blind, second.blind, List.map_append]
  keeps text groups next member :=
    (List.mem_append.mp member).elim (first.keeps text groups next) (second.keeps text groups next)

/-! ### Repetitions -/

theorem upTo_extend (stops : Stops stop step) (greedy : Bool) (count : Nat) {text : List Char}
    (more : List Char) {progress : Progress} (here : progress.rest = text ++ [stop]) :
    upTo step greedy count (progress.extend more) =
      (upTo step greedy count progress).map (Progress.extend more) := by
  induction count generalizing text progress with
  | zero => rfl
  | succ count inductionHypothesis =>
    have further : ((step (progress.extend more)).filter fun next =>
          next.rest.length < (progress.extend more).rest.length).flatMap (upTo step greedy count) =
        (((step progress).filter fun next => next.rest.length < progress.rest.length).flatMap
          (upTo step greedy count)).map (Progress.extend more) := by
      rw [stops.at more here, List.filter_map, List.flatMap_map, List.map_flatMap]
      have same : ((fun next : Progress => decide (next.rest.length <
          (progress.extend more).rest.length)) ∘ Progress.extend more) =
          fun next => decide (next.rest.length < progress.rest.length) := by
        funext next
        simp [Progress.extend]
      rw [same]
      refine List.flatMap_congr fun next member => ?_
      obtain ⟨rest, groups⟩ := progress
      dsimp only at here
      subst here
      obtain ⟨left, there, _⟩ := stops.keeps text groups next (List.mem_filter.mp member).1
      exact inductionHypothesis there
    unfold upTo
    dsimp only
    rw [further]
    split
    · rw [List.map_append, List.map_singleton]
    · rw [List.map_cons]

theorem upTo_keeps (stops : Stops stop step) (greedy : Bool) (count : Nat) {text : List Char}
    {progress next : Progress} (here : progress.rest = text ++ [stop])
    (member : next ∈ upTo step greedy count progress) :
    ∃ left, next.rest = left ++ [stop] ∧ left.length ≤ text.length := by
  induction count generalizing text progress with
  | zero => exact ⟨text, List.mem_singleton.mp member ▸ here, Nat.le_refl _⟩
  | succ count inductionHypothesis =>
    have among : next = progress ∨ ∃ middle ∈ step progress, next ∈ upTo step greedy count middle := by
      unfold upTo at member
      dsimp only at member
      split at member
      · rcases List.mem_append.mp member with later | now
        · obtain ⟨middle, place, rest⟩ := List.mem_flatMap.mp later
          exact .inr ⟨middle, (List.mem_filter.mp place).1, rest⟩
        · exact .inl (List.mem_singleton.mp now)
      · rcases List.mem_cons.mp member with now | later
        · exact .inl now
        · obtain ⟨middle, place, rest⟩ := List.mem_flatMap.mp later
          exact .inr ⟨middle, (List.mem_filter.mp place).1, rest⟩
    rcases among with rfl | ⟨middle, place, later⟩
    · exact ⟨text, here, Nat.le_refl _⟩
    · obtain ⟨rest, groups⟩ := progress
      dsimp only at here
      subst here
      obtain ⟨left, there, shorter⟩ := stops.keeps text groups middle place
      obtain ⟨last, ends, less⟩ := inductionHypothesis there later
      exact ⟨last, ends, Nat.le_trans less shorter⟩

theorem upTo_done (stops : Stops stop step) (greedy : Bool) (count : Nat) {progress : Progress}
    (here : progress.rest = [] ++ [stop]) : upTo step greedy count progress = [progress] := by
  cases count with
  | zero => rfl
  | succ count =>
    obtain ⟨rest, groups⟩ := progress
    dsimp only at here
    subst here
    have none : ((step ⟨[] ++ [stop], groups⟩).filter fun next =>
        next.rest.length < ([] ++ [stop]).length) = [] := by
      refine List.filter_eq_nil_iff.mpr fun next member less => ?_
      obtain ⟨left, there, _⟩ := stops.keeps [] groups next member
      have less := of_decide_eq_true less
      rw [there, List.length_append, List.length_append] at less
      exact absurd less (Nat.not_lt_of_le (Nat.add_le_add_right (Nat.zero_le _) _))
    unfold upTo
    dsimp only
    rw [none, List.flatMap_nil]
    cases greedy <;> rfl

/-- As many rounds as there are characters before the stop are enough. -/
theorem upTo_enough (stops : Stops stop step) (greedy : Bool) {bound : Nat} {text : List Char}
    {progress : Progress} (here : progress.rest = text ++ [stop]) (short : text.length ≤ bound)
    {count rounds : Nat} (many : bound ≤ count) (enough : bound ≤ rounds) :
    upTo step greedy count progress = upTo step greedy rounds progress := by
  induction bound generalizing text progress count rounds with
  | zero =>
    obtain rfl := List.length_eq_zero_iff.mp (Nat.le_zero.mp short)
    rw [upTo_done stops greedy count here, upTo_done stops greedy rounds here]
  | succ bound inductionHypothesis =>
    obtain ⟨count, rfl⟩ := Nat.exists_eq_add_of_le' many
    obtain ⟨rounds, rfl⟩ := Nat.exists_eq_add_of_le' enough
    have further : ((step progress).filter fun next =>
          next.rest.length < progress.rest.length).flatMap (upTo step greedy (count + bound)) =
        ((step progress).filter fun next =>
          next.rest.length < progress.rest.length).flatMap (upTo step greedy (rounds + bound)) := by
      refine List.flatMap_congr fun next member => ?_
      obtain ⟨place, less⟩ := List.mem_filter.mp member
      obtain ⟨rest, groups⟩ := progress
      dsimp only at here
      subst here
      obtain ⟨left, there, _⟩ := stops.keeps text groups next place
      have shorter : left.length ≤ bound := by
        have less := of_decide_eq_true less
        rw [there, List.length_append, List.length_append] at less
        omega
      exact inductionHypothesis there shorter (Nat.le_add_left _ _) (Nat.le_add_left _ _)
    rw [← Nat.add_assoc, ← Nat.add_assoc]
    unfold upTo
    dsimp only
    rw [further]

theorem iterate_extend (stops : Stops stop step) (greedy : Bool) (count least : Nat)
    {text : List Char} (more : List Char) {progress : Progress}
    (here : progress.rest = text ++ [stop]) :
    iterate step greedy count least (progress.extend more) =
      (iterate step greedy count least progress).map (Progress.extend more) := by
  induction least generalizing text progress with
  | zero => exact upTo_extend stops greedy count more here
  | succ least inductionHypothesis =>
    unfold iterate
    rw [stops.at more here, List.flatMap_map, List.map_flatMap]
    refine List.flatMap_congr fun next member => ?_
    obtain ⟨rest, groups⟩ := progress
    dsimp only at here
    subst here
    obtain ⟨left, there, _⟩ := stops.keeps text groups next member
    exact inductionHypothesis there

theorem iterate_keeps (stops : Stops stop step) (greedy : Bool) (count least : Nat)
    {text : List Char} {progress next : Progress} (here : progress.rest = text ++ [stop])
    (member : next ∈ iterate step greedy count least progress) :
    ∃ left, next.rest = left ++ [stop] ∧ left.length ≤ text.length := by
  induction least generalizing text progress with
  | zero => exact upTo_keeps stops greedy count here member
  | succ least inductionHypothesis =>
    obtain ⟨middle, place, later⟩ := List.mem_flatMap.mp member
    obtain ⟨rest, groups⟩ := progress
    dsimp only at here
    subst here
    obtain ⟨left, there, shorter⟩ := stops.keeps text groups middle place
    obtain ⟨last, ends, less⟩ := inductionHypothesis there later
    exact ⟨last, ends, Nat.le_trans less shorter⟩

theorem iterate_enough (stops : Stops stop step) (greedy : Bool) (least : Nat) {text : List Char}
    {progress : Progress} (here : progress.rest = text ++ [stop]) {count rounds : Nat}
    (many : text.length ≤ count) (enough : text.length ≤ rounds) :
    iterate step greedy count least progress = iterate step greedy rounds least progress := by
  induction least generalizing text progress with
  | zero => exact upTo_enough stops greedy here (Nat.le_refl _) many enough
  | succ least inductionHypothesis =>
    unfold iterate
    refine List.flatMap_congr fun next member => ?_
    obtain ⟨rest, groups⟩ := progress
    dsimp only at here
    subst here
    obtain ⟨left, there, shorter⟩ := stops.keeps text groups next member
    exact inductionHypothesis there (Nat.le_trans shorter many) (Nat.le_trans shorter enough)

/-- A repetition of a step that stops, with the bound that a pattern sets it. -/
theorem Stops.times (stops : Stops stop step) (greedy : Bool) (least : Nat) (most : Option Nat) :
    Stops stop fun progress =>
      iterate step greedy (match most with
        | none => progress.rest.length
        | some most => most - least) least progress where
  blind text more groups := by
    dsimp only
    rw [Progress.extend_stop, iterate_extend stops greedy _ least more rfl]
    cases most with
    | some => rfl
    | none =>
      dsimp only [Progress.extend]
      rw [iterate_enough stops greedy least rfl]
      · rw [List.length_append]
        exact Nat.le_add_right _ _
      · rw [List.length_append]
        exact Nat.le_add_right _ _
  keeps text groups next member := iterate_keeps stops greedy _ least rfl member

/-! ### Patterns -/

/-- Steps that only take characters away. -/
def Consumes (step : Progress → List Progress) : Prop :=
  ∀ progress, ∀ next ∈ step progress, next.rest <:+ progress.rest

theorem upTo_suffix (consumes : Consumes step) (greedy : Bool) (count : Nat) :
    Consumes (upTo step greedy count) := by
  induction count with
  | zero => exact fun progress next member => List.mem_singleton.mp member ▸ List.suffix_refl _
  | succ count inductionHypothesis =>
    intro progress next member
    have later (place : next ∈ ((step progress).filter fun next =>
        next.rest.length < progress.rest.length).flatMap (upTo step greedy count)) :
        next.rest <:+ progress.rest := by
      obtain ⟨middle, place, rest⟩ := List.mem_flatMap.mp place
      exact (inductionHypothesis middle next rest).trans
        (consumes progress middle (List.mem_filter.mp place).1)
    unfold upTo at member
    dsimp only at member
    split at member
    · rcases List.mem_append.mp member with place | now
      · exact later place
      · exact List.mem_singleton.mp now ▸ List.suffix_refl _
    · rcases List.mem_cons.mp member with rfl | place
      · exact List.suffix_refl _
      · exact later place

theorem iterate_suffix (consumes : Consumes step) (greedy : Bool) (count least : Nat) :
    Consumes (iterate step greedy count least) := by
  induction least with
  | zero => exact upTo_suffix consumes greedy count
  | succ least inductionHypothesis =>
    intro progress next member
    obtain ⟨middle, place, rest⟩ := List.mem_flatMap.mp member
    exact (inductionHypothesis middle next rest).trans (consumes progress middle place)

theorem Pattern.ends_suffix (pattern : Pattern) : Consumes pattern.ends := by
  induction pattern with
  | empty => exact fun progress next member => List.mem_singleton.mp member ▸ List.suffix_refl _
  | atEnd =>
    intro progress next member
    unfold ends at member
    split at member
    · exact List.mem_singleton.mp member ▸ List.suffix_refl _
    · cases member
  | char accepted =>
    rintro ⟨rest, groups⟩ next member
    cases rest with
    | nil => cases member
    | cons first rest =>
      simp only [ends] at member
      split at member
      · exact List.mem_singleton.mp member ▸ List.suffix_cons _ _
      · cases member
  | seq first second firstHypothesis secondHypothesis =>
    intro progress next member
    obtain ⟨middle, place, rest⟩ := List.mem_flatMap.mp member
    exact (secondHypothesis middle next rest).trans (firstHypothesis progress middle place)
  | alt first second firstHypothesis secondHypothesis =>
    exact fun progress next member => (List.mem_append.mp member).elim
      (firstHypothesis progress next) (secondHypothesis progress next)
  | group index body bodyHypothesis =>
    intro progress next member
    obtain ⟨inside, place, rfl⟩ := List.mem_map.mp member
    exact bodyHypothesis progress inside place
  | times body least most greedy bodyHypothesis =>
    exact fun progress => iterate_suffix bodyHypothesis greedy _ least progress

variable {pattern : Pattern}

/-- The text is empty or ends with the character. -/
def Closed (stop : Char) (text : List Char) : Prop := text = [] ∨ ∃ front, text = front ++ [stop]

theorem Closed.suffix {text rest : List Char} (closed : Closed stop text) (later : rest <:+ text) :
    Closed stop rest := by
  rcases closed with rfl | ⟨front, rfl⟩
  · exact .inl (List.suffix_nil.mp later)
  · rcases List.suffix_concat_iff.mp later with nothing | ⟨tail, whole, _⟩
    · exact .inl nothing
    · exact .inr ⟨tail, whole⟩

end Regex
