/-
This file models base 64 with the alphabet for addresses and without padding, as
it is written, and the strict reader for it, which also takes the two other
characters for 62 and 63. What is written is read back.
-/

import Mathlib.Data.List.Basic
import Mathlib.Tactic.IntervalCases

namespace Base64

/-! ### Symbols -/

/-- The symbol for six bits. -/
def symbol (value : Nat) : Char :=
  if value < 26 then .ofNat (65 + value)
  else if value < 52 then .ofNat (71 + value)
  else if value < 62 then .ofNat (value - 4)
  else if value = 62 then '-'
  else '_'

/-- The six bits of a symbol of either alphabet. -/
def value (char : Char) : Option Nat :=
  let code := char.toNat
  if 65 ≤ code ∧ code ≤ 90 then some (code - 65)
  else if 97 ≤ code ∧ code ≤ 122 then some (code - 71)
  else if 48 ≤ code ∧ code ≤ 57 then some (code + 4)
  else if char = '-' ∨ char = '+' then some 62
  else if char = '_' ∨ char = '/' then some 63
  else none

theorem value_symbol {number : Nat} (small : number < 64) : value (symbol number) = some number := by
  interval_cases number <;> decide

/-- A symbol is a character of ASCII, and neither the padding nor a full stop. -/
theorem symbol_plain {number : Nat} (small : number < 64) :
    (symbol number).toNat < 128 ∧ symbol number ≠ '=' ∧ symbol number ≠ '.' := by
  interval_cases number <;> decide

/-! ### Groups of six bits -/

/-- The bytes in groups of six bits. -/
def sextets : List UInt8 → List Nat
  | [] => []
  | [one] => [one.toNat / 4, one.toNat % 4 * 16]
  | [one, two] => [one.toNat / 4, one.toNat % 4 * 16 + two.toNat / 16, two.toNat % 16 * 4]
  | one :: two :: three :: rest =>
    one.toNat / 4 :: (one.toNat % 4 * 16 + two.toNat / 16) ::
      (two.toNat % 16 * 4 + three.toNat / 64) :: three.toNat % 64 :: sextets rest

/-- The bytes of groups of six bits; bits that are left over are not looked at. -/
def octets : List Nat → Option (List UInt8)
  | [] => some []
  | [_] => none
  | [one, two] => some [.ofNat (one * 4 + two / 16)]
  | [one, two, three] => some [.ofNat (one * 4 + two / 16), .ofNat (two % 16 * 16 + three / 4)]
  | one :: two :: three :: four :: rest =>
    (octets rest).map fun bytes =>
      .ofNat (one * 4 + two / 16) :: .ofNat (two % 16 * 16 + three / 4) ::
        .ofNat (three % 4 * 64 + four) :: bytes

theorem ofNat_eq (byte : UInt8) {number : Nat} (same : number = byte.toNat) :
    UInt8.ofNat number = byte := by
  rw [same, UInt8.ofNat_toNat]

theorem octets_sextets (bytes : List UInt8) : octets (sextets bytes) = some bytes := by
  induction bytes using sextets.induct with
  | case1 => rfl
  | case2 one =>
    have bound := one.toNat_lt
    unfold sextets octets
    rw [ofNat_eq one (by omega)]
  | case3 one two =>
    have bound := one.toNat_lt
    have boundToo := two.toNat_lt
    unfold sextets octets
    rw [ofNat_eq one (by omega), ofNat_eq two (by omega)]
  | case4 one two three rest inductionHypothesis =>
    have bound := one.toNat_lt
    have boundToo := two.toNat_lt
    have last := three.toNat_lt
    unfold sextets octets
    rw [inductionHypothesis, Option.map_some, ofNat_eq one (by omega),
      ofNat_eq two (by omega), ofNat_eq three (by omega)]

theorem sextets_small (bytes : List UInt8) : ∀ number ∈ sextets bytes, number < 64 := by
  induction bytes using sextets.induct with
  | case1 => exact fun number member => nomatch member
  | case2 one =>
    have bound := one.toNat_lt
    unfold sextets
    simp only [List.forall_mem_cons, List.not_mem_nil, false_implies, implies_true, and_true]
    omega
  | case3 one two =>
    have bound := one.toNat_lt
    have boundToo := two.toNat_lt
    unfold sextets
    simp only [List.forall_mem_cons, List.not_mem_nil, false_implies, implies_true, and_true]
    omega
  | case4 one two three rest inductionHypothesis =>
    have bound := one.toNat_lt
    have boundToo := two.toNat_lt
    have last := three.toNat_lt
    unfold sextets
    simp only [List.forall_mem_cons]
    exact ⟨by omega, by omega, by omega, by omega, inductionHypothesis⟩

/-- One group is never left alone. -/
theorem length_sextets (bytes : List UInt8) : (sextets bytes).length % 4 ≠ 1 := by
  induction bytes using sextets.induct with
  | case1 => exact Nat.zero_ne_one
  | case2 | case3 => exact Nat.ne_of_beq_eq_false rfl
  | case4 one two three rest inductionHypothesis =>
    unfold sextets
    simp only [List.length_cons]
    omega

/-! ### Texts -/

/-- `base64.urlsafe_b64encode(..).rstrip(b"=")` -/
def encode (bytes : List UInt8) : List Char := (sextets bytes).map symbol

/-- The padding that makes the length a multiple of four. -/
def padding (length : Nat) : List Char := .replicate ((4 - length % 4) % 4) '='

/-- `base64.b64decode(value + padding, altchars=b"-_", validate=True)`: behind whole groups of four
symbols any padding is taken, behind two or three symbols just what completes the group. -/
def decode (text : List Char) : Option (List UInt8) :=
  let padded := text ++ padding text.length
  let data := padded.takeWhile (· ≠ '=')
  let rest := padded.dropWhile (· ≠ '=')
  let complete :=
    match data.length % 4 with
    | 0 => decide (data ≠ [] ∨ rest = [])
    | count => decide (count + rest.length = 4)
  if rest.all (· = '=') && complete then (data.mapM value).bind octets else none

theorem mapM_value {numbers : List Nat} (small : ∀ number ∈ numbers, number < 64) :
    (numbers.map symbol).mapM value = some numbers := by
  induction numbers with
  | nil => rfl
  | cons number numbers inductionHypothesis =>
    obtain ⟨first, others⟩ := List.forall_mem_cons.mp small
    rw [List.map_cons, List.mapM_cons, value_symbol first, inductionHypothesis others]
    rfl

theorem encode_plain (bytes : List UInt8) :
    ∀ char ∈ encode bytes, char.toNat < 128 ∧ char ≠ '=' ∧ char ≠ '.' := by
  intro char member
  obtain ⟨number, place, rfl⟩ := List.mem_map.mp member
  exact symbol_plain (sextets_small bytes number place)

theorem takeWhile_padding {data : List Char} (symbols : ∀ char ∈ data, char ≠ '=') (count : Nat) :
    (data ++ List.replicate count '=').takeWhile (fun char => decide (char ≠ '=')) = data ∧
      (data ++ List.replicate count '=').dropWhile (fun char => decide (char ≠ '=')) =
        .replicate count '=' := by
  have inside : ∀ char ∈ data, decide (char ≠ '=') = true := fun char member =>
    decide_eq_true (symbols char member)
  rw [List.takeWhile_append_of_pos inside, List.dropWhile_append_of_pos inside]
  cases count with
  | zero => exact ⟨List.append_nil _, rfl⟩
  | succ count => exact ⟨List.append_nil _, rfl⟩

/-- What is written is read back. -/
theorem decode_encode (bytes : List UInt8) : decode (encode bytes) = some bytes := by
  have length : (encode bytes).length % 4 ≠ 1 := by
    unfold encode
    rw [List.length_map]
    exact length_sextets bytes
  have read : ((encode bytes).mapM value).bind octets = some bytes := by
    unfold encode
    rw [mapM_value (sextets_small bytes)]
    exact octets_sextets bytes
  have symbols : ∀ char ∈ encode bytes, char ≠ '=' := fun char member =>
    (encode_plain bytes char member).2.1
  unfold decode padding
  generalize encode bytes = data at length read symbols ⊢
  obtain ⟨taken, left⟩ := takeWhile_padding symbols ((4 - data.length % 4) % 4)
  dsimp only
  rw [taken, left, read]
  have all : (List.replicate ((4 - data.length % 4) % 4) '=').all (fun char => decide (char = '=')) =
      true := List.all_eq_true.mpr fun char member =>
        decide_eq_true (List.eq_of_mem_replicate member)
  rw [all, List.length_replicate, Bool.true_and]
  refine if_pos ?_
  split
  · next whole =>
    rw [whole, decide_eq_true_iff]
    exact .inr rfl
  · next some =>
    have nonzero : data.length % 4 ≠ 0 := some
    have below := Nat.mod_lt data.length (show 0 < 4 by decide)
    rw [decide_eq_true_iff]
    omega

end Base64
