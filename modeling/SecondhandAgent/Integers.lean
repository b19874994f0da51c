/-
This file models how Python reads an integer off a text: white space around it, a
sign, the digits of any script, single underscores between digits, a prefix in
base 16, and the limit on the digits in base 10.
-/

import SecondhandAgent.Regex

namespace Integers

/-- A character as it is read: white space and digits of any script are those of ASCII. -/
def plain (char : Char) : Char :=
  if char.toNat < 127 then char
  else if Regex.isSpace char then ' '
  else match Regex.digitValue char with
    | some value => .ofNat (48 + value)
    | none => '?'

def isSpace (char : Char) : Bool := char = ' ' || (9 ≤ char.toNat && char.toNat ≤ 13)

/-- The digit of a base. -/
def digitOf (base : Nat) (char : Char) : Option Nat :=
  let code := char.toNat
  let digit :=
    if 48 ≤ code ∧ code ≤ 57 then some (code - 48)
    else if 97 ≤ code ∧ code ≤ 122 then some (code - 87)
    else if 65 ≤ code ∧ code ≤ 90 then some (code - 55)
    else none
  digit.filter (· < base)

/-- Digits with single underscores between them; the flag says that a digit was read last. -/
def digitsOf (base : Nat) : Bool → List Char → Option (List Nat)
  | true, [] => some []
  | false, [] => none
  | true, '_' :: rest => digitsOf base false rest
  | _, char :: rest =>
    (digitOf base char).bind fun digit => (digitsOf base true rest).map (digit :: ·)

/-- A sign, if there is one: whether it is a minus, and what is left. -/
def signed : List Char → Bool × List Char
  | '-' :: rest => (true, rest)
  | '+' :: rest => (false, rest)
  | rest => (false, rest)

/-- What is behind the prefix of base 16. -/
def unprefixed : List Char → List Char
  | '0' :: 'x' :: '_' :: rest | '0' :: 'X' :: '_' :: rest | '0' :: 'x' :: rest
  | '0' :: 'X' :: rest => rest
  | rest => rest

/-- The most digits that are read in base 10. -/
def mostDigits : Nat := 4300

/-- `int(text, base)` for base 10 and base 16. -/
def read (base : Nat) (text : String) : Option Int :=
  let inner := ((text.toList.map plain).dropWhile isSpace).reverse.dropWhile isSpace
  let (negative, rest) := signed inner.reverse
  match digitsOf base false (if base = 16 then unprefixed rest else rest) with
  | none => none
  | some digits =>
    if base = 10 ∧ mostDigits < digits.length then none
    else
      let value := digits.foldl (fun value digit => base * value + digit) 0
      some (if negative then -value else value)

example : read 10 " -1_20 " = some (-120) := by decide +kernel

end Integers
