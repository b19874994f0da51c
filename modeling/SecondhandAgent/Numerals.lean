/-
This file is about the numbers in a text: the pattern of a number takes as many
digits as it can, a scanner may ask for something of the character before a
match, and a text that lists numbers with gaps between them yields just these.
-/

import Mathlib.Tactic.IntervalCases
import SecondhandAgent.Scanning

namespace Regex

/-! ### Runs of a character class -/

section

variable {accepted : CharSet} {text : List Char}

theorem ends_char (accepted : CharSet) (next : Char) (rest : List Char)
    (groups : List (Nat × List Char)) :
    (Pattern.char accepted).ends { rest := next :: rest, groups } =
      if accepted.accepts next then [{ rest, groups }] else [] := rfl

/-- The first way to repeat a class is to take the whole run. -/
theorem head_upTo_char (accepted : CharSet) (more : Nat) (text : List Char)
    (groups : List (Nat × List Char)) (enough : text.length ≤ more) :
    (upTo (Pattern.char accepted).ends true more { rest := text, groups }).head? =
      some { rest := text.dropWhile accepted.accepts, groups } := by
  induction more generalizing text with
  | zero =>
    obtain rfl := List.eq_nil_of_length_eq_zero (Nat.le_zero.mp enough)
    rfl
  | succ more inductionHypothesis =>
    cases text with
    | nil => rfl
    | cons next rest =>
      have fewer : rest.length ≤ more := Nat.le_of_succ_le_succ enough
      cases takes : accepted.accepts next with
      | false =>
        rw [List.dropWhile_cons_of_neg (by rw [takes]; exact Bool.false_ne_true)]
        simp only [upTo, ends_char, takes, if_false, Bool.false_eq_true, List.filter_nil,
          List.flatMap_nil, if_true, List.nil_append, List.head?_cons]
      | true =>
        rw [List.dropWhile_cons_of_pos takes]
        have shorter : rest.length < (next :: rest).length := Nat.lt_succ_self _
        simp only [upTo, ends_char, takes, if_true, List.filter_cons, List.filter_nil, shorter,
          decide_true, List.flatMap_cons, List.flatMap_nil, List.append_nil, List.head?_append,
          inductionHypothesis rest fewer, Option.some_or]

/-- One class, once or more often, takes a run that is not empty. -/
theorem head_run (accepted : CharSet) (text : List Char) (groups : List (Nat × List Char)) :
    ((Pattern.times (.char accepted) 1 none true).ends { rest := text, groups }).head? =
      if text.takeWhile accepted.accepts = [] then none
      else some { rest := text.dropWhile accepted.accepts, groups } := by
  cases text with
  | nil => rfl
  | cons next rest =>
    cases takes : accepted.accepts next with
    | false =>
      rw [List.takeWhile_cons_of_neg (by rw [takes]; exact Bool.false_ne_true), if_pos rfl]
      simp only [Pattern.ends, iterate, takes, if_false, Bool.false_eq_true, List.flatMap_nil,
        List.head?_nil]
    | true =>
      rw [List.takeWhile_cons_of_pos takes, if_neg (List.cons_ne_nil _ _),
        List.dropWhile_cons_of_pos takes]
      have first := head_upTo_char accepted (rest.length + 1) rest groups (Nat.le_succ _)
      simpa only [Pattern.ends, iterate, takes, if_true, List.flatMap_cons, List.flatMap_nil,
        List.append_nil, List.length_cons] using first

end

/-- A sequence first goes on from the first way to begin, if there is always a way to go on. -/
theorem head_flatMap {first : List Progress} {second : Progress → List Progress}
    (total : ∀ progress, second progress ≠ []) :
    (first.flatMap second).head? = first.head?.bind fun progress => (second progress).head? := by
  cases first with
  | nil => rfl
  | cons progress rest =>
    rw [List.flatMap_cons, List.head?_append, List.head?_cons, Option.bind_some]
    cases same : second progress with
    | nil => exact absurd same (total progress)
    | cons next more => rfl

/-! ### The pattern of a number -/

/-- The pattern of a decimal part. -/
def fractionPattern : Pattern :=
  .seq (.char (.one '.')) (.seq (.times (.char .digit) 1 none true) .empty)

/-- The pattern of the digits of a number, with a decimal part or without one. -/
def numberPattern : Pattern :=
  .seq (.times (.char .digit) 1 none true) (.seq (.times fractionPattern 0 (some 1) true) .empty)

theorem compile_number : compile r"\d+(?:\.\d+)?" = some numberPattern := by decide +kernel

theorem flatMap_single (list : List Progress) : (list.flatMap fun progress => [progress]) = list := by
  rw [List.flatMap_singleton']

/-- An optional part is taken if it can be and takes something. -/
theorem head_optional (body : Pattern) (progress : Progress) :
    ((Pattern.seq (.times body 0 (some 1) true) .empty).ends progress).head? =
      ((body.ends progress).filter fun next =>
        next.rest.length < progress.rest.length).head?.or (some progress) := by
  change ((upTo body.ends true 1 progress).flatMap fun next => [next]).head? = _
  rw [flatMap_single]
  simp only [upTo, if_true]
  rw [flatMap_single, List.head?_append, List.head?_singleton]

theorem optional_ne_nil (body : Pattern) (progress : Progress) :
    (Pattern.seq (.times body 0 (some 1) true) .empty).ends progress ≠ [] := by
  intro nothing
  have head := head_optional body progress
  rw [nothing] at head
  generalize ((body.ends progress).filter fun next =>
    next.rest.length < progress.rest.length).head? = first at head
  cases first <;> cases head

/-- What is left behind the decimal part. -/
def behindFraction : List Char → List Char
  | '.' :: rest =>
    if rest.takeWhile CharSet.digit.accepts = [] then '.' :: rest
    else rest.dropWhile CharSet.digit.accepts
  | text => text

/-- The decimal part is taken if there is one. -/
theorem head_fraction (text : List Char) (groups : List (Nat × List Char)) :
    ((Pattern.seq (.times fractionPattern 0 (some 1) true) .empty).ends
      { rest := text, groups }).head? = some { rest := behindFraction text, groups } := by
  unfold behindFraction
  rw [head_optional]
  cases text with
  | nil => rfl
  | cons next rest =>
    by_cases point : next = '.'
    · subst point
      have body : fractionPattern.ends { rest := '.' :: rest, groups } =
          (Pattern.times (.char .digit) 1 none true).ends { rest, groups } := by
        change ((if CharSet.accepts (.one '.') '.' then [{ rest, groups }] else [] :
          List Progress).flatMap fun progress =>
            ((Pattern.times (.char .digit) 1 none true).ends progress).flatMap fun next => [next]) = _
        rw [if_pos (by decide), List.flatMap_cons, List.flatMap_nil, List.append_nil, flatMap_single]
      have shorter : ∀ next ∈ (Pattern.times (.char .digit) 1 none true).ends { rest, groups },
          decide (next.rest.length < ('.' :: rest).length) = true := by
        intro next member
        have suffix := Pattern.ends_suffix _ _ _ member
        exact decide_eq_true (Nat.lt_succ_of_le suffix.length_le)
      rw [body, List.filter_eq_self.mpr shorter, head_run]
      by_cases none : rest.takeWhile CharSet.digit.accepts = []
      · simp only [none, if_true, Option.none_or]
      · simp only [none, if_false, Option.some_or]
    · have refused : fractionPattern.ends { rest := next :: rest, groups } = [] := by
        change (if CharSet.accepts (.one '.') next then [{ rest, groups }] else [] :
          List Progress).flatMap _ = _
        rw [if_neg (by simpa [CharSet.accepts] using point), List.flatMap_nil]
      rw [refused]
      split
      · next same =>
        cases same
        exact absurd rfl point
      · rfl

/-- The longest number that the text begins with, and what is left. -/
def numeral (text : List Char) : Option (List Char × List Char) :=
  if text.takeWhile CharSet.digit.accepts = [] then none
  else
    let rest := behindFraction (text.dropWhile CharSet.digit.accepts)
    some (text.take (text.length - rest.length), rest)

/-- What the pattern of a number takes. -/
theorem matchPrefix_number (text : List Char) :
    matchPrefix numberPattern text =
      (numeral text).map fun found => { taken := found.1, groups := [], rest := found.2 } := by
  have head : (numberPattern.ends { rest := text }).head? = _ :=
    head_flatMap (optional_ne_nil fractionPattern)
  unfold matchPrefix numeral
  rw [head, head_run]
  by_cases none : text.takeWhile CharSet.digit.accepts = []
  · simp only [none, if_true, Option.bind_none, Option.map_none]
  · simp only [none, if_false, Option.bind_some, head_fraction, Option.map_some]

/-! ### The words for numbers -/

/-- Digits, or digits, a point and digits. -/
structure IsNumeral (word : List Char) : Prop where
  parts : ∃ whole part, word = whole ++ part ∧ whole ≠ [] ∧
    (∀ char ∈ whole, CharSet.digit.accepts char = true) ∧
    (part = [] ∨ ∃ fraction, part = '.' :: fraction ∧ fraction ≠ [] ∧
      ∀ char ∈ fraction, CharSet.digit.accepts char = true)

/-- The text does not go on with a number. -/
def Ends (text : List Char) : Prop :=
  ∀ char, text.head? = some char → CharSet.digit.accepts char = false ∧ char ≠ '.'

theorem numeral_nil : numeral [] = none := rfl

theorem numeral_cons {first : Char} (other : CharSet.digit.accepts first = false)
    (rest : List Char) : numeral (first :: rest) = none := by
  unfold numeral
  rw [List.takeWhile_cons_of_neg (by rw [other]; exact Bool.false_ne_true), if_pos rfl]

/-- A run of digits before a text that does not begin with one. -/
theorem run_exact {run rest : List Char} (inside : ∀ char ∈ run, CharSet.digit.accepts char = true)
    (boundary : ∀ char, rest.head? = some char → CharSet.digit.accepts char = false) :
    (run ++ rest).takeWhile CharSet.digit.accepts = run ∧
      (run ++ rest).dropWhile CharSet.digit.accepts = rest := by
  rw [List.takeWhile_append_of_pos inside, List.dropWhile_append_of_pos inside]
  cases rest with
  | nil => exact ⟨List.append_nil _, rfl⟩
  | cons first more =>
    have stops : ¬ CharSet.digit.accepts first = true := by
      rw [boundary first rfl]
      exact Bool.false_ne_true
    exact ⟨by rw [List.takeWhile_cons_of_neg stops, List.append_nil],
      List.dropWhile_cons_of_neg stops⟩

theorem Ends.behindFraction {text : List Char} (ends : Ends text) : behindFraction text = text := by
  unfold Regex.behindFraction
  split
  · exact absurd rfl (ends _ rfl).2
  · rfl

theorem take_left {text rest taken : List Char} (whole : text = taken ++ rest) :
    text.take (text.length - rest.length) = taken := by
  subst whole
  rw [List.length_append, Nat.add_sub_cancel, List.take_left]

/-- A word is taken as a whole. -/
theorem numeral_append {word rest : List Char} (isNumeral : IsNumeral word) (ends : Ends rest) :
    numeral (word ++ rest) = some (word, rest) := by
  obtain ⟨whole, part, rfl, nonempty, digits, bare | ⟨fraction, rfl, filled, decimals⟩⟩ :=
    isNumeral.parts
  · subst bare
    rw [List.append_nil]
    obtain ⟨taken, left⟩ := run_exact digits fun char first => (ends char first).1
    unfold numeral
    rw [taken, left, if_neg nonempty, ends.behindFraction]
    dsimp only
    rw [take_left rfl]
  · have boundary : ∀ char, ('.' :: (fraction ++ rest)).head? = some char →
        CharSet.digit.accepts char = false := fun char first => by
      cases first
      decide
    obtain ⟨taken, left⟩ := run_exact digits boundary
    obtain ⟨takenToo, leftToo⟩ := run_exact decimals fun char first => (ends char first).1
    have behind : behindFraction ('.' :: (fraction ++ rest)) = rest := by
      change (if (fraction ++ rest).takeWhile CharSet.digit.accepts = [] then '.' :: (fraction ++ rest)
        else (fraction ++ rest).dropWhile CharSet.digit.accepts) = rest
      rw [takenToo, leftToo, if_neg filled]
    unfold numeral
    rw [List.append_assoc, List.cons_append, taken, left, if_neg nonempty, behind]
    dsimp only
    have parts : whole ++ '.' :: (fraction ++ rest) = (whole ++ '.' :: fraction) ++ rest := by
      rw [List.append_assoc, List.cons_append]
    rw [take_left parts]

/-! ### Scanning -/

/-- `re.findall` for a pattern that begins with a condition on the character before it and takes at
least one character. -/
def findallBehind (allowed : Option Char → Bool) (pattern : Pattern) :
    Nat → Option Char → List Char → List String
  | 0, _, _ => []
  | fuel + 1, previous, text =>
    match if allowed previous then matchPrefix pattern text else none with
    | some found =>
      .ofList found.taken ::
        findallBehind allowed pattern fuel (found.taken.getLast?.or previous) found.rest
    | none =>
      match text with
      | [] => []
      | char :: rest => findallBehind allowed pattern fuel (some char) rest

/-- There are no digits, and no point to begin with. -/
structure Gap (gap : List Char) : Prop where
  plain : ∀ char ∈ gap, CharSet.digit.accepts char = false
  point : gap.head? ≠ some '.'

theorem Gap.of_all {gap : List Char}
    (plain : (gap.all fun char => !CharSet.digit.accepts char) = true)
    (point : gap.head? ≠ some '.') : Gap gap where
  plain char member := by
    have other := List.all_eq_true.mp plain char member
    simpa using other
  point := point

theorem Gap.ends {gap : List Char} (isGap : Gap gap) : Ends gap := fun char first =>
  ⟨isGap.plain char (List.mem_of_mem_head? first), fun point => isGap.point (point ▸ first)⟩

theorem Gap.append {one two : List Char} (first : Gap one) (nonempty : one ≠ [])
    (plain : ∀ char ∈ two, CharSet.digit.accepts char = false) : Gap (one ++ two) where
  plain := List.forall_mem_append.mpr ⟨first.plain, plain⟩
  point := by
    rw [List.head?_append_of_ne_nil _ nonempty]
    exact first.point

/-- A text in which the words stand, each behind a gap whose last character allows a match. -/
inductive Written (allowed : Option Char → Bool) : List Char → List (List Char) → Prop where
  | gap {gap : List Char} (isGap : Gap gap) : Written allowed gap []
  | word {gap word rest : List Char} {words : List (List Char)} (nonempty : gap ≠ [])
      (isGap : Gap gap) (allows : allowed (some (gap.getLast nonempty)) = true)
      (isNumeral : IsNumeral word) (later : Written allowed rest words) :
      Written allowed (gap ++ (word ++ rest)) (word :: words)

section

variable {allowed : Option Char → Bool} {text gap word rest : List Char} {words : List (List Char)}

theorem Written.ends (written : Written allowed text words) : Ends text := by
  cases written with
  | gap isGap => exact isGap.ends
  | word nonempty isGap =>
    intro char first
    rw [List.head?_append_of_ne_nil _ nonempty] at first
    exact isGap.ends char first

/-- Something else may stand before it all. -/
theorem Written.behind (written : Written allowed text words) {front : List Char}
    (isGap : Gap front) (nonempty : front ≠ []) : Written allowed (front ++ text) words := by
  cases written with
  | gap last => exact .gap (isGap.append nonempty last.plain)
  | word some next allows isNumeral later =>
    rw [← List.append_assoc]
    refine .word (List.append_ne_nil_of_right_ne_nil _ some) (isGap.append nonempty next.plain) ?_
      isNumeral later
    rw [List.getLast_append_of_ne_nil _ some]
    exact allows

theorem IsNumeral.ne_nil (isNumeral : IsNumeral word) : word ≠ [] := by
  obtain ⟨whole, part, rfl, nonempty, _⟩ := isNumeral.parts
  exact List.append_ne_nil_of_left_ne_nil nonempty part

/-- A search passes over a gap. -/
theorem searchChars_gap (plain : ∀ char ∈ gap, CharSet.digit.accepts char = false)
    (isNumeral : IsNumeral word) (ends : Ends rest) :
    searchChars numberPattern (gap ++ (word ++ rest)) =
      some (gap, { taken := word, groups := [], rest }) := by
  induction gap with
  | nil =>
    have found := matchPrefix_number (word ++ rest)
    rw [numeral_append isNumeral ends, Option.map_some] at found
    rw [List.nil_append]
    cases same : word ++ rest with
    | nil => exact absurd (List.append_eq_nil_iff.mp same).1 isNumeral.ne_nil
    | cons first more =>
      unfold searchChars
      rw [← same, found]
  | cons first gap inductionHypothesis =>
    obtain ⟨other, plain⟩ := List.forall_mem_cons.mp plain
    have nothing := matchPrefix_number (first :: (gap ++ (word ++ rest)))
    rw [numeral_cons other, Option.map_none] at nothing
    rw [List.cons_append]
    unfold searchChars
    rw [nothing, inductionHypothesis plain]
    rfl

/-- There is nothing in a gap. -/
theorem searchChars_plain (plain : ∀ char ∈ gap, CharSet.digit.accepts char = false) :
    searchChars numberPattern gap = none := by
  induction gap with
  | nil => rfl
  | cons first gap inductionHypothesis =>
    obtain ⟨other, plain⟩ := List.forall_mem_cons.mp plain
    have nothing := matchPrefix_number (first :: gap)
    rw [numeral_cons other, Option.map_none] at nothing
    unfold searchChars
    rw [nothing, inductionHypothesis plain]
    rfl

/-- A scan finds the words. -/
theorem Written.findallChars (written : Written allowed text words) {fuel : Nat}
    (enough : text.length ≤ fuel) :
    findallChars numberPattern fuel text = words.map String.ofList := by
  induction written generalizing fuel with
  | gap isGap =>
    cases fuel with
    | zero => rfl
    | succ fuel =>
      unfold Regex.findallChars
      rw [searchChars_plain isGap.plain]
      rfl
  | word nonempty isGap _ isNumeral later inductionHypothesis =>
    have positive := List.length_pos_iff.mpr nonempty
    rw [List.length_append, List.length_append] at enough
    cases fuel with
    | zero => omega
    | succ fuel =>
      unfold Regex.findallChars
      rw [searchChars_gap isGap.plain isNumeral later.ends]
      exact congrArg _ (inductionHypothesis (by omega))

/-- A scan with a condition on the character before passes over a gap. -/
theorem findallBehind_gap (plain : ∀ char ∈ gap, CharSet.digit.accepts char = false) (fuel : Nat)
    (previous : Option Char) (text : List Char) :
    findallBehind allowed numberPattern (gap.length + fuel) previous (gap ++ text) =
      findallBehind allowed numberPattern fuel (gap.getLast?.or previous) text := by
  induction gap generalizing previous with
  | nil => rw [List.length_nil, Nat.zero_add]; rfl
  | cons first gap inductionHypothesis =>
    obtain ⟨other, plain⟩ := List.forall_mem_cons.mp plain
    have nothing := matchPrefix_number (first :: (gap ++ text))
    rw [numeral_cons other, Option.map_none] at nothing
    have skip : (if allowed previous then matchPrefix numberPattern (first :: (gap ++ text))
        else none) = none := by
      rw [nothing, ite_self]
    have length : (first :: gap).length + fuel = gap.length + fuel + 1 := by
      rw [List.length_cons]
      omega
    rw [length, List.cons_append]
    conv_lhs => unfold findallBehind
    rw [skip]
    dsimp only
    rw [inductionHypothesis plain, List.getLast?_cons]
    cases gap.getLast? <;> rfl

/-- A scan with the condition finds the words. -/
theorem Written.findallBehind (written : Written allowed text words) {fuel : Nat}
    (enough : text.length < fuel) (previous : Option Char) :
    findallBehind allowed numberPattern fuel previous text = words.map String.ofList := by
  induction written generalizing fuel previous with
  | gap isGap =>
    obtain ⟨more, rfl⟩ := Nat.exists_eq_add_of_lt enough
    have passed : Regex.findallBehind allowed numberPattern (_ + (more + 1)) previous _ = _ :=
      findallBehind_gap isGap.plain (more + 1) previous []
    rw [List.append_nil] at passed
    rw [Nat.add_assoc, passed]
    unfold Regex.findallBehind
    rw [matchPrefix_number, numeral_nil, Option.map_none, ite_self]
    rfl
  | @word gap word rest _ nonempty isGap allows isNumeral later inductionHypothesis =>
    have positive := List.length_pos_iff.mpr isNumeral.ne_nil
    rw [List.length_append, List.length_append] at enough
    obtain ⟨more, rfl⟩ : ∃ more, fuel = gap.length + (more + 1) :=
      ⟨fuel - gap.length - 1, by omega⟩
    have here : allowed (gap.getLast?.or previous) = true := by
      rw [List.getLast?_eq_some_getLast nonempty, Option.some_or]
      exact allows
    rw [findallBehind_gap isGap.plain]
    unfold Regex.findallBehind
    rw [if_pos here, matchPrefix_number, numeral_append isNumeral later.ends, Option.map_some]
    exact congrArg _ (inductionHypothesis (by omega) _)

end

/-! ### Digits of ASCII -/

/-- The digit of ASCII for a digit. -/
def plainDigit (char : Char) : Char := .ofNat (48 + (digitValue char).getD 0)

/-- The characters of numbers that are written in ASCII. -/
def plainChars : List Char := ['0', '1', '2', '3', '4', '5', '6', '7', '8', '9', '.', ' ']

theorem plainDigit_eq (char : Char) :
    digitValue (plainDigit char) = some ((digitValue char).getD 0) ∧
      plainDigit char ∈ plainChars := by
  have below : (digitValue char).getD 0 < 10 := by
    cases digit : digitValue char with
    | none => decide
    | some value =>
      obtain ⟨start, found, rfl⟩ := Option.map_eq_some_iff.mp digit
      have inside := List.find?_some found
      rw [decide_eq_true_iff] at inside
      exact (Nat.sub_lt_iff_lt_add' inside.1).mpr inside.2
  unfold plainDigit
  generalize (digitValue char).getD 0 = value at below
  interval_cases value <;> decide

/-- The same number in digits of ASCII. -/
def plainWord (word : List Char) : List Char :=
  let whole := word.takeWhile (· ≠ '.')
  let fraction := (word.drop whole.length).drop 1
  '0' :: whole.map plainDigit ++ if fraction = [] then [] else '.' :: fraction.map plainDigit

theorem plainWord_chars (word : List Char) : ∀ char ∈ plainWord word, char ∈ plainChars := by
  have digits (chars : List Char) : ∀ char ∈ chars.map plainDigit, char ∈ plainChars := by
    intro char member
    obtain ⟨old, _, rfl⟩ := List.mem_map.mp member
    exact (plainDigit_eq old).2
  unfold plainWord
  refine List.forall_mem_append.mpr ⟨List.forall_mem_cons.mpr ⟨by decide, digits _⟩, ?_⟩
  split
  · exact fun char member => nomatch member
  · exact List.forall_mem_cons.mpr ⟨by decide, digits _⟩

theorem isNumeral_plainWord (word : List Char) : IsNumeral (plainWord word) := by
  have digits (chars : List Char) : ∀ char ∈ chars.map plainDigit,
      CharSet.digit.accepts char = true := by
    intro char member
    obtain ⟨old, _, rfl⟩ := List.mem_map.mp member
    change (digitValue (plainDigit old)).isSome = true
    rw [(plainDigit_eq old).1]
    rfl
  refine ⟨_, _, rfl, List.cons_ne_nil _ _, List.forall_mem_cons.mpr ⟨by decide, digits _⟩, ?_⟩
  split
  · exact .inl rfl
  · next some => exact .inr ⟨_, rfl, mt List.map_eq_nil_iff.mp some, digits _⟩

/-! ### Patterns that begin with a class -/

section

variable {accepted : CharSet} {rest : Pattern} {text : List Char}

/-- A pattern that begins with a class finds nothing where no character is of the class. -/
theorem searchChars_class (others : ∀ char ∈ text, accepted.accepts char = false) :
    searchChars (.seq (.times (.char accepted) 1 none true) rest) text = none := by
  have nothing (text : List Char) (other : ∀ char, text.head? = some char →
      accepted.accepts char = false) :
      matchPrefix (.seq (.times (.char accepted) 1 none true) rest) text = none := by
    have run := head_run accepted text []
    have empty : text.takeWhile accepted.accepts = [] := by
      cases text with
      | nil => rfl
      | cons first more =>
        exact List.takeWhile_cons_of_neg (by rw [other first rfl]; exact Bool.false_ne_true)
    rw [if_pos empty, List.head?_eq_none_iff] at run
    unfold matchPrefix
    change (((Pattern.times (.char accepted) 1 none true).ends { rest := text }).flatMap
      rest.ends).head?.map _ = none
    rw [run]
    rfl
  induction text with
  | nil =>
    unfold searchChars
    rw [nothing [] (by rintro _ ⟨⟩)]
    rfl
  | cons first more inductionHypothesis =>
    obtain ⟨other, later⟩ := List.forall_mem_cons.mp others
    unfold searchChars
    rw [nothing (first :: more) fun char same => by cases same; exact other,
      inductionHypothesis later]
    rfl

theorem findallChars_class (fuel : Nat) (others : ∀ char ∈ text, accepted.accepts char = false) :
    findallChars (.seq (.times (.char accepted) 1 none true) rest) fuel text = [] := by
  cases fuel with
  | zero => rfl
  | succ fuel =>
    unfold findallChars
    rw [searchChars_class others]

end

end Regex
