/-
This file models how Python reads a UUID off a text: `urn:` and `uuid:` are
taken out wherever they stand, then the braces at the ends and all hyphens, and
what is left has to be 32 characters that are an integer in base 16. The
lemmas say which texts are none.
-/

import Mathlib.Algebra.Group.Int.Defs
import Mathlib.Data.List.Basic
import SecondhandAgent.Integers

namespace Integers

/-- A character of no integer in base 16. -/
def foreign (char : Char) : Bool :=
  !isSpace (plain char) && (digitOf 16 (plain char)).isNone &&
    decide (plain char ∉ ['_', '+', '-', 'x', 'X'])

theorem digitsOf_member {char : Char} {text : List Char} (member : char ∈ text)
    (digit : digitOf 16 char = none) (other : char ≠ '_') (read : Bool) :
    digitsOf 16 read text = none := by
  induction text generalizing read with
  | nil => cases member
  | cons head rest inductionHypothesis =>
    rcases List.mem_cons.mp member with rfl | later
    · unfold digitsOf
      split <;> simp_all
    · unfold digitsOf
      split <;> simp_all

theorem mem_dropWhile {skips : Char → Bool} {char : Char} {text : List Char}
    (member : char ∈ text) (stays : skips char = false) : char ∈ text.dropWhile skips := by
  induction text with
  | nil => cases member
  | cons head rest inductionHypothesis =>
    rw [List.dropWhile_cons]
    split
    case isTrue skipped =>
      rcases List.mem_cons.mp member with rfl | later
      · simp [stays] at skipped
      · exact inductionHypothesis later
    case isFalse => exact member

theorem mem_signed {char : Char} {text : List Char} (member : char ∈ text) (plus : char ≠ '+')
    (minus : char ≠ '-') : char ∈ (signed text).2 := by
  unfold signed
  split <;> simp_all

theorem mem_unprefixed {char : Char} {text : List Char} (member : char ∈ text)
    (digit : digitOf 16 char = none) (other : char ∉ ['_', 'x', 'X']) :
    char ∈ unprefixed text := by
  have zero : char ≠ '0' := by
    rintro rfl
    exact absurd digit (by decide)
  unfold unprefixed
  split <;> simp_all

/-- A text with a foreign character is no integer. -/
theorem read_foreign {char : Char} {text : String} (member : char ∈ text.toList)
    (strange : foreign char = true) : read 16 text = none := by
  simp only [foreign, Bool.and_eq_true, Bool.not_eq_true', Option.isNone_iff_eq_none,
    decide_eq_true_eq] at strange
  obtain ⟨⟨space, digit⟩, marks⟩ := strange
  have inner : plain char ∈ ((text.toList.map plain).dropWhile isSpace).reverse.dropWhile isSpace :=
    mem_dropWhile (List.mem_reverse.mpr (mem_dropWhile (List.mem_map_of_mem member) space)) space
  have rest := mem_signed (List.mem_reverse.mpr inner) (by simp_all) (by simp_all)
  have hex := mem_unprefixed rest digit (by simp_all)
  have none := digitsOf_member hex digit (by simp_all) false
  simp only [read]
  rw [if_pos trivial, none]

end Integers

namespace Uuid

/-- `text.replace(pattern, '')`; the number is how much of a match is still to be dropped. -/
def removed (pattern : List Char) : Nat → List Char → List Char
  | _, [] => []
  | skip + 1, _ :: rest => removed pattern skip rest
  | 0, char :: rest =>
    if pattern.isPrefixOf (char :: rest) then removed pattern (pattern.length - 1) rest
    else char :: removed pattern 0 rest

def isBrace (char : Char) : Bool := char = '{' || char = '}'

/-- What has to be 32 digits in base 16. -/
def hexOf (text : List Char) : List Char :=
  let bare := removed ['u', 'u', 'i', 'd', ':'] 0 (removed ['u', 'r', 'n', ':'] 0 text)
  ((bare.dropWhile isBrace).reverse.dropWhile isBrace).reverse.filter fun char => char ≠ '-'

/-- `UUID(text)` does not raise. -/
def reads (text : String) : Bool :=
  let hex := hexOf text.toList
  decide (hex.length = 32) &&
    (Integers.read 16 (String.ofList hex)).any fun value => decide (0 ≤ value ∧ value < 2 ^ 128)

/-! ### What is left of a text -/

theorem removed_sublist (pattern : List Char) (skip : Nat) (text : List Char) :
    (removed pattern skip text).Sublist text := by
  fun_induction removed pattern skip text with
  | case1 => exact .slnil
  | case2 skip char rest inductionHypothesis => exact inductionHypothesis.cons _
  | case3 char rest _ inductionHypothesis => exact inductionHypothesis.cons _
  | case4 char rest _ inductionHypothesis => exact inductionHypothesis.cons_cons _

/-- A character that is not in the pattern stays. -/
theorem mem_removed {first : Char} {pattern : List Char} {char : Char}
    (other : char ∉ first :: pattern) (skip : Nat) (text : List Char)
    (member : char ∈ text.drop skip) : char ∈ removed (first :: pattern) skip text := by
  fun_induction removed (first :: pattern) skip text with
  | case1 skip => simp at member
  | case2 skip head rest inductionHypothesis => exact inductionHypothesis (by simpa using member)
  | case3 head rest found inductionHypothesis =>
    obtain ⟨tail, same⟩ := List.isPrefixOf_iff_prefix.mp found
    have inTail : char ∈ tail := by
      rw [List.drop_zero, ← same, List.mem_append] at member
      exact member.resolve_left other
    obtain ⟨rfl, rfl⟩ := List.cons.inj same
    exact inductionHypothesis (by simpa using inTail)
  | case4 head rest _ inductionHypothesis =>
    rcases List.mem_cons.mp (by simpa using member) with rfl | later
    · exact List.mem_cons_self
    · exact List.mem_cons_of_mem _ (inductionHypothesis (by simpa using later))

/-- Nothing is taken out of a text without the first character of the pattern. -/
theorem removed_without {first : Char} {pattern text : List Char} (absent : first ∉ text) :
    removed (first :: pattern) 0 text = text := by
  induction text with
  | nil => rfl
  | cons head rest inductionHypothesis =>
    rw [List.mem_cons, not_or] at absent
    rw [removed, if_neg (by simp [absent.1]), inductionHypothesis absent.2]

theorem mem_hexOf_of_mem_bare {char : Char} {text : List Char}
    (member : char ∈ removed ['u', 'u', 'i', 'd', ':'] 0 (removed ['u', 'r', 'n', ':'] 0 text))
    (brace : isBrace char = false) (hyphen : char ≠ '-') : char ∈ hexOf text := by
  refine List.mem_filter.mpr ⟨List.mem_reverse.mpr ?_, by simpa using hyphen⟩
  exact Integers.mem_dropWhile
    (List.mem_reverse.mpr (Integers.mem_dropWhile member brace)) brace

theorem hexOf_sublist (text : List Char) : (hexOf text).Sublist text := by
  have bare : (removed ['u', 'u', 'i', 'd', ':'] 0
      (removed ['u', 'r', 'n', ':'] 0 text)).Sublist text :=
    (removed_sublist _ _ _).trans (removed_sublist _ _ _)
  refine List.filter_sublist.trans (List.Sublist.trans ?_ bare)
  rw [← List.reverse_sublist, List.reverse_reverse]
  exact (List.dropWhile_sublist _).trans (List.dropWhile_sublist _).reverse

/-! ### Texts that are no UUID -/

theorem reads_of_mem_hexOf {char : Char} {text : String} (member : char ∈ hexOf text.toList)
    (strange : Integers.foreign char = true) : reads text = false := by
  have none : Integers.read 16 (String.ofList (hexOf text.toList)) = none :=
    Integers.read_foreign (by simpa using member) strange
  simp [reads, none]

/-- A text with a character that belongs neither to what is taken out nor to a number. -/
theorem reads_foreign {char : Char} {text : String} (member : char ∈ text.toList)
    (strange : Integers.foreign char = true)
    (other : char ∉ ['u', 'u', 'i', 'd', ':', 'r', 'n', '{', '}', '-']) : reads text = false := by
  simp only [List.mem_cons, List.not_mem_nil, not_or, or_false] at other
  have first : char ∈ removed ['u', 'r', 'n', ':'] 0 text.toList :=
    mem_removed (by simp_all) 0 _ member
  have second : char ∈ removed ['u', 'u', 'i', 'd', ':'] 0
      (removed ['u', 'r', 'n', ':'] 0 text.toList) := mem_removed (by simp_all) 0 _ first
  exact reads_of_mem_hexOf (mem_hexOf_of_mem_bare second (by simp_all [isBrace]) (by simp_all))
    strange

/-- A text with a colon and no `u`. -/
theorem reads_colon {text : String} (member : ':' ∈ text.toList) (absent : 'u' ∉ text.toList) :
    reads text = false := by
  have bare : ':' ∈ removed ['u', 'u', 'i', 'd', ':'] 0
      (removed ['u', 'r', 'n', ':'] 0 text.toList) := by
    rw [removed_without absent, removed_without absent]
    exact member
  exact reads_of_mem_hexOf (mem_hexOf_of_mem_bare bare (by decide) (by decide)) (by decide)

/-- A text of fewer than 32 characters. -/
theorem reads_short {text : String} (short : text.toList.length < 32) : reads text = false := by
  have fewer := (hexOf_sublist text.toList).length_le
  have differs : ¬ (hexOf text.toList).length = 32 := by omega
  simp [reads, differs]

end Uuid
