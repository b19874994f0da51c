/-
This file models regular expressions in the dialect of Python's `re` module as
far as words, classes, groups and counted repetitions go: the syntax tree of a
pattern, the reader that makes it of a text, and the matcher. A matcher tries
its choices in a fixed order, so what a pattern finds is the first entry of the
list of all ways in which it matches.
-/

import Mathlib.Data.Nat.Notation

namespace Regex

/-! ### Characters -/

/-- The zeros of the decimal digits of Unicode; the nine other digits of a script follow its
zero. -/
def decimalZeros : List Nat :=
  [0x30, 0x660, 0x6f0, 0x7c0, 0x966, 0x9e6, 0xa66, 0xae6, 0xb66, 0xbe6, 0xc66, 0xce6, 0xd66,
    0xde6, 0xe50, 0xed0, 0xf20, 0x1040, 0x1090, 0x17e0, 0x1810, 0x1946, 0x19d0, 0x1a80, 0x1a90,
    0x1b50, 0x1bb0, 0x1c40, 0x1c50, 0xa620, 0xa8d0, 0xa900, 0xa9d0, 0xa9f0, 0xaa50, 0xabf0,
    0xff10, 0x104a0, 0x10d30, 0x11066, 0x110f0, 0x11136, 0x111d0, 0x112f0, 0x11450, 0x114d0,
    0x11650, 0x116c0, 0x11730, 0x118e0, 0x11950, 0x11c50, 0x11d50, 0x11da0, 0x11f50, 0x16a60,
    0x16ac0, 0x16b50, 0x1d7ce, 0x1d7d8, 0x1d7e2, 0x1d7ec, 0x1d7f6, 0x1e140, 0x1e2f0, 0x1e4f0,
    0x1e950, 0x1fbf0]

/-- The value of a decimal digit. -/
def digitValue (char : Char) : Option Nat :=
  (decimalZeros.find? fun start => start ≤ char.toNat ∧ char.toNat < start + 10).map
    fun start => char.toNat - start

/-- The characters `\s` stands for. -/
def isSpace (char : Char) : Bool :=
  let code := char.toNat
  (9 ≤ code && code ≤ 13) || (28 ≤ code && code ≤ 32) || code = 133 || code = 160 ||
    code = 5760 || (8192 ≤ code && code ≤ 8202) || code = 8232 || code = 8233 ||
    code = 8239 || code = 8287 || code = 12288

/-- What one place of a pattern accepts. -/
inductive CharSet where
  /-- `.`: everything but a line feed. -/
  | any
  | digit
  | space
  | one (char : Char)
  | among (chars : List Char)
  | except (chars : List Char)
deriving DecidableEq

def CharSet.accepts : CharSet → Char → Bool
  | any, char => char ≠ '\n'
  | digit, char => (digitValue char).isSome
  | space, char => isSpace char
  | one expected, char => char = expected
  | among chars, char => chars.contains char
  | except chars, char => !chars.contains char

/-! ### Patterns -/

inductive Pattern where
  | empty
  /-- `$`: the end of the text, or a line feed that ends it. -/
  | atEnd
  | char (accepted : CharSet)
  | seq (first second : Pattern)
  | alt (first second : Pattern)
  | group (index : Nat) (body : Pattern)
  /-- Between `least` and `most` times the body, as often or as rarely as possible. -/
  | times (body : Pattern) (least : Nat) (most : Option Nat) (greedy : Bool)
deriving DecidableEq

/-- How far a match has come: what is left of the text, and what the groups took, the latest
first. -/
structure Progress where
  rest : List Char
  groups : List (Nat × List Char) := []
deriving DecidableEq

/-- Repeat a step up to `more` times as long as the text gets shorter. -/
def upTo (step : Progress → List Progress) (greedy : Bool) : Nat → Progress → List Progress
  | 0, progress => [progress]
  | more + 1, progress =>
    let further := ((step progress).filter fun next =>
      next.rest.length < progress.rest.length).flatMap (upTo step greedy more)
    if greedy then further ++ [progress] else progress :: further

/-- Repeat a step `least` times and then up to `more` times. -/
def iterate (step : Progress → List Progress) (greedy : Bool) (more : Nat) :
    Nat → Progress → List Progress
  | 0, progress => upTo step greedy more progress
  | least + 1, progress => (step progress).flatMap (iterate step greedy more least)

/-- Every way in which a prefix of the text matches, in the order in which they are tried. -/
def Pattern.ends : Pattern → Progress → List Progress
  | empty, progress => [progress]
  | atEnd, progress => if progress.rest = [] ∨ progress.rest = ['\n'] then [progress] else []
  | char accepted, progress =>
    match progress.rest with
    | [] => []
    | next :: rest => if accepted.accepts next then [{ progress with rest }] else []
  | seq first second, progress => (first.ends progress).flatMap second.ends
  | alt first second, progress => first.ends progress ++ second.ends progress
  | group index body, progress =>
    (body.ends progress).map fun next =>
      { next with
        groups :=
          (index, progress.rest.take (progress.rest.length - next.rest.length)) :: next.groups }
  | times body least most greedy, progress =>
    let more :=
      match most with
      | none => progress.rest.length
      | some most => most - least
    iterate body.ends greedy more least progress

/-! ### Reading a pattern -/

/-- A number at the start of the text. -/
def readNumber (text : List Char) : Nat × List Char :=
  let digits := text.takeWhile fun char => char.isDigit
  (digits.foldl (fun value char => 10 * value + (char.toNat - 48)) 0, text.drop digits.length)

/-- The bounds of a counted repetition behind its opening brace. -/
def readBounds (text : List Char) : Option ((Nat × Option Nat) × List Char) :=
  let (least, rest) := readNumber text
  match rest with
  | ',' :: rest =>
    let (most, rest) := readNumber rest
    match rest with
    | '\x7d' :: rest => some ((least, some most), rest)
    | _ => none
  | '\x7d' :: rest => some ((least, some least), rest)
  | _ => none

/-- The repetition behind an atom, if there is one. -/
def readRepetition (text : List Char) : Option ((Nat × Option Nat) × List Char) :=
  match text with
  | '*' :: rest => some ((0, none), rest)
  | '+' :: rest => some ((1, none), rest)
  | '?' :: rest => some ((0, some 1), rest)
  | '\x7b' :: rest => readBounds rest
  | _ => none

def repeated (atom : Pattern) (text : List Char) : Pattern × List Char :=
  match readRepetition text with
  | none => (atom, text)
  | some ((least, most), '?' :: rest) => (.times atom least most false, rest)
  | some ((least, most), rest) => (.times atom least most true, rest)

/-- The characters of a class up to its closing bracket. -/
def readClass (text : List Char) : Option (List Char × List Char) :=
  match text.dropWhile (· ≠ ']') with
  | ']' :: rest => some (text.takeWhile (· ≠ ']'), rest)
  | _ => none

def escaped : Char → CharSet
  | 'd' => .digit
  | 's' => .space
  | char => .one char

mutual

/-- Alternatives, each a sequence; `groups` counts the groups that were opened. -/
def readAlternatives : Nat → Nat → List Char → Option (Pattern × Nat × List Char)
  | 0, _, _ => none
  | fuel + 1, groups, text => do
    let (first, groups, rest) ← readSequence fuel groups text
    match rest with
    | '|' :: rest => do
      let (second, groups, rest) ← readAlternatives fuel groups rest
      pure (.alt first second, groups, rest)
    | rest => pure (first, groups, rest)

def readSequence : Nat → Nat → List Char → Option (Pattern × Nat × List Char)
  | 0, _, _ => none
  | _ + 1, groups, [] => some (.empty, groups, [])
  | _ + 1, groups, '|' :: rest => some (.empty, groups, '|' :: rest)
  | _ + 1, groups, ')' :: rest => some (.empty, groups, ')' :: rest)
  | fuel + 1, groups, text => do
    let (atom, groups, rest) ← readAtom fuel groups text
    let (first, rest) := repeated atom rest
    let (second, groups, rest) ← readSequence fuel groups rest
    pure (.seq first second, groups, rest)

def readAtom : Nat → Nat → List Char → Option (Pattern × Nat × List Char)
  | 0, _, _ => none
  | fuel + 1, groups, '(' :: '?' :: ':' :: text => do
    let (body, groups, rest) ← readAlternatives fuel groups text
    match rest with
    | ')' :: rest => pure (body, groups, rest)
    | _ => none
  | fuel + 1, groups, '(' :: text => do
    let (body, opened, rest) ← readAlternatives fuel (groups + 1) text
    match rest with
    | ')' :: rest => pure (.group (groups + 1) body, opened, rest)
    | _ => none
  | _ + 1, groups, '[' :: '^' :: text => do
    let (chars, rest) ← readClass text
    pure (.char (.except chars), groups, rest)
  | _ + 1, groups, '[' :: text => do
    let (chars, rest) ← readClass text
    pure (.char (.among chars), groups, rest)
  | _ + 1, groups, '.' :: rest => some (.char .any, groups, rest)
  | _ + 1, groups, '$' :: rest => some (.atEnd, groups, rest)
  | _ + 1, groups, '\\' :: char :: rest => some (.char (escaped char), groups, rest)
  | _ + 1, groups, char :: rest => some (.char (.one char), groups, rest)
  | _ + 1, _, [] => none

end

/-- `re.compile` -/
def compile (pattern : String) : Option Pattern :=
  let text := pattern.toList
  match readAlternatives (3 * text.length + 3) 0 text with
  | some (pattern, _, []) => some pattern
  | _ => none

/-! ### Searching -/

/-- What a pattern found: the text it took, the groups and what is left behind it. -/
structure Match where
  taken : List Char
  groups : List (Nat × List Char)
  rest : List Char
deriving DecidableEq

/-- `match[index]` -/
def Match.group (found : Match) (index : Nat) : String :=
  .ofList ((found.groups.lookup index).getD [])

/-- The first way in which a prefix of the text matches. -/
def matchPrefix (pattern : Pattern) (text : List Char) : Option Match :=
  (pattern.ends { rest := text }).head?.map fun progress =>
    { taken := text.take (text.length - progress.rest.length)
      groups := progress.groups
      rest := progress.rest }

/-- The first match in the text and what stands before it. -/
def searchChars (pattern : Pattern) : List Char → Option (List Char × Match)
  | [] => (matchPrefix pattern []).map fun found => ([], found)
  | char :: rest =>
    match matchPrefix pattern (char :: rest) with
    | some found => some ([], found)
    | none => (searchChars pattern rest).map fun (before, found) => (char :: before, found)

/-- `re.search` -/
def search (pattern text : String) : Option Match :=
  (compile pattern).bind fun compiled => (searchChars compiled text.toList).map (·.2)

/-- `bool(re.search(..))` -/
def found (pattern text : String) : Bool := (search pattern text).isSome

/-- `re.fullmatch` -/
def fullmatch (pattern text : String) : Option Match :=
  (compile pattern).bind fun compiled =>
    ((compiled.ends { rest := text.toList }).find? fun progress => progress.rest = []).map
      fun progress => { taken := text.toList, groups := progress.groups, rest := [] }

/-- `re.findall` for a pattern without groups that takes at least one character. -/
def findallChars (pattern : Pattern) : Nat → List Char → List String
  | 0, _ => []
  | fuel + 1, text =>
    match searchChars pattern text with
    | none => []
    | some (_, found) => .ofList found.taken :: findallChars pattern fuel found.rest

def findall (pattern text : String) : List String :=
  match compile pattern with
  | none => []
  | some compiled => findallChars compiled text.length text.toList

/-- `re.split` for a pattern without groups that takes at least one character. -/
def splitChars (pattern : Pattern) : Nat → List Char → List String
  | 0, text => [.ofList text]
  | fuel + 1, text =>
    match searchChars pattern text with
    | none => [.ofList text]
    | some (before, found) => .ofList before :: splitChars pattern fuel found.rest

def split (pattern text : String) : List String :=
  match compile pattern with
  | none => [text]
  | some compiled => splitChars compiled text.length text.toList

example : (search r"电池.*?(至少|>=)\s*(\d+(?:\.\d+)?)\s*%" "电池至少 80.5 %").map
    (fun found => (found.group 1, found.group 2)) = some ("至少", "80.5") := by decide +kernel

/-! ### Texts that go on -/

/-- A pattern without groups and repetitions. -/
def Pattern.plain : Pattern → Bool
  | empty | char _ => true
  | seq first second | alt first second => first.plain && second.plain
  | atEnd | group _ _ | times _ _ _ _ => false

/-- The words of a pattern are plain. -/
def Plain (pattern : String) : Bool := (compile pattern).any Pattern.plain

end Regex
