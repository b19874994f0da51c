/-
This file separates what a JSON value says from how it is written. A value is
described once, over any encoding; one encoding makes the tree that digests are
taken of, another the text of `json.dumps` with its default separators and
without the escapes of `ensure_ascii`. It also has what two descriptions share
that list the same entries: lists with the same members and distinct numbers
are the same once they are sorted by these.
-/

import Mathlib.Algebra.GroupWithZero.Nat
import Mathlib.Data.List.Sort
import SecondhandAgent.Values

namespace Negotiation

/-! ### Encodings -/

/-- A way to write JSON values. -/
structure Encoding (Output : Type) where
  null : Output
  bool : Bool → Output
  number : Int → Output
  text : String → Output
  list : List Output → Output
  object : List (String × Output) → Output

namespace Encoding

def option {Output Value : Type} (encoding : Encoding Output) (write : Value → Output) :
    Option Value → Output
  | none => encoding.null
  | some value => write value

/-- The tree of a value. -/
def tree : Encoding Json where
  null := .null
  bool := .bool
  number := .number
  text := .text
  list := .list
  object := .object

/-- A digit of a number in base 16. -/
def hexDigit (value : Nat) : Char :=
  if value < 10 then .ofNat (48 + value) else .ofNat (87 + value)

/-- A character as it stands in a text. -/
def escaped (char : Char) : List Char :=
  if char = '"' then ['\\', '"']
  else if char = '\\' then ['\\', '\\']
  else if char = '\n' then ['\\', 'n']
  else if char = '\r' then ['\\', 'r']
  else if char = '\t' then ['\\', 't']
  else if char.toNat = 8 then ['\\', 'b']
  else if char.toNat = 12 then ['\\', 'f']
  else if char.toNat < 32 then
    ['\\', 'u', '0', '0', hexDigit (char.toNat / 16), hexDigit (char.toNat % 16)]
  else [char]

def quoted (text : String) : List Char := ['"'] ++ text.toList.flatMap escaped ++ ['"']

/-- The characters of `json.dumps(.., ensure_ascii=False)`. -/
def dumps : Encoding (List Char) where
  null := "null".toList
  bool value := if value then "true".toList else "false".toList
  number value := (toString value).toList
  text := quoted
  list items := ['['] ++ [',', ' '].intercalate items ++ [']']
  object fields :=
    ['\x7b'] ++ [',', ' '].intercalate (fields.map fun field =>
      quoted field.1 ++ [':', ' '] ++ field.2) ++ ['\x7d']

/-- The bytes of a text in UTF-8. -/
def size (chars : List Char) : Nat := (chars.map Char.utf8Size).sum

example : dumps.object [("a", dumps.text "\"新\"\n"), ("b", dumps.list [dumps.number 1, dumps.null])] =
    "\x7b\"a\": \"\\\"新\\\"\\n\", \"b\": [1, null]\x7d".toList := by decide +kernel

end Encoding

/-! ### Sorted lists -/

section

variable {Row : Type} {number : Row → Nat} {one two : List Row}

/-- Rows with distinct numbers are sorted in one way. -/
theorem eq_of_sorted_numbers (nodup : (one.map number).Nodup) (same : one.Perm two)
    (sorted : one.Pairwise fun row other => number row ≤ number other)
    (sortedToo : two.Pairwise fun row other => number row ≤ number other) : one = two := by
  refine same.eq_of_pairwise (fun row other member otherMember le ge => ?_) sorted sortedToo
  exact List.inj_on_of_nodup_map nodup member (same.mem_iff.mpr otherMember) (Nat.le_antisymm le ge)

theorem perm_of_numbers (nodup : (one.map number).Nodup) (nodupToo : (two.map number).Nodup)
    (same : ∀ row, row ∈ one ↔ row ∈ two) : one.Perm two :=
  (List.perm_ext_iff_of_nodup (List.Nodup.of_map _ nodup) (List.Nodup.of_map _ nodupToo)).mpr same

/-- Sorted by numbers that are distinct, lists with the same members are the same. -/
theorem insertionSort_congr (nodup : (one.map number).Nodup) (nodupToo : (two.map number).Nodup)
    (same : ∀ row, row ∈ one ↔ row ∈ two) :
    one.insertionSort (fun row other => number row ≤ number other) =
      two.insertionSort fun row other => number row ≤ number other := by
  have : IsTrans Row fun row other => number row ≤ number other :=
    ⟨fun _ _ _ => Nat.le_trans⟩
  have : Std.Total fun row other : Row => number row ≤ number other :=
    ⟨fun row other => Nat.le_total (number row) (number other)⟩
  have perm := List.perm_insertionSort (fun row other : Row => number row ≤ number other)
  refine eq_of_sorted_numbers ?_
    ((perm one).trans ((perm_of_numbers nodup nodupToo same).trans (perm two).symm))
    (List.pairwise_insertionSort _ one) (List.pairwise_insertionSort _ two)
  exact ((perm one).map number).nodup_iff.mpr nodup

end

end Negotiation
