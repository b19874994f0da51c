/-
This file collects the rules by which the later files take a transaction apart.

A transaction is a chain of guards, reads and writes in `Except`: the first
failure ends it and nothing is stored. `require` is a guard, `expect` a read
that must find its row. The rules say what a chain that succeeds has passed,
and where a chain that fails has stopped, so that no later proof unfolds
`bind`.
-/

import Mathlib.Logic.Basic

namespace Store

variable {Fault Value Result : Type}

/-- Go on only if the condition holds. -/
def require (condition : Prop) [Decidable condition] (fault : Fault) : Except Fault Unit :=
  if condition then .ok () else .error fault

/-- Read a row that has to be there. -/
def expect (found : Option Value) (fault : Fault) : Except Fault Value :=
  match found with
  | some value => .ok value
  | none => .error fault

/-- The computation succeeds with a value of which the condition holds. -/
def Succeeds (outcome : Except Fault Value) (holds : Value → Prop) : Prop :=
  match outcome with
  | .ok value => holds value
  | .error _ => False

instance (outcome : Except Fault Value) (holds : Value → Prop) [DecidablePred holds] :
    Decidable (Succeeds outcome holds) :=
  match outcome with
  | .ok value => inferInstanceAs (Decidable (holds value))
  | .error _ => inferInstanceAs (Decidable False)

/-- The row is there and the condition holds of it. -/
def Found (found : Option Value) (holds : Value → Prop) : Prop :=
  match found with
  | some value => holds value
  | none => False

instance (found : Option Value) (holds : Value → Prop) [DecidablePred holds] :
    Decidable (Found found holds) :=
  match found with
  | some value => inferInstanceAs (Decidable (holds value))
  | none => inferInstanceAs (Decidable False)

/-! ### Chains that succeed -/

theorem succeeds_iff (outcome : Except Fault Value) (holds : Value → Prop) :
    Succeeds outcome holds ↔ ∃ value, outcome = .ok value ∧ holds value := by
  cases outcome <;> simp [Succeeds]

theorem found_iff (found : Option Value) (holds : Value → Prop) :
    Found found holds ↔ ∃ value, found = some value ∧ holds value := by
  cases found <;> simp [Found]

@[simp]
theorem bind_eq_ok (first : Except Fault Value) (next : Value → Except Fault Result)
    (result : Result) :
    (first >>= next) = .ok result ↔ ∃ value, first = .ok value ∧ next value = .ok result := by
  cases first <;> simp [bind, Except.bind]

@[simp]
theorem pure_eq_ok (value result : Value) :
    (pure value : Except Fault Value) = .ok result ↔ value = result := by
  simp [pure, Except.pure]

@[simp]
theorem require_eq_ok (condition : Prop) [Decidable condition] (fault : Fault)
    (done : Unit) : require condition fault = .ok done ↔ condition := by
  unfold require
  by_cases holds : condition <;> simp [holds]

@[simp]
theorem expect_eq_ok (found : Option Value) (fault : Fault) (value : Value) :
    expect found fault = .ok value ↔ found = some value := by
  cases found <;> simp [expect]

@[simp]
theorem map_eq_ok (outcome : Except Fault Value) (change : Value → Result) (result : Result) :
    outcome.map change = .ok result ↔ ∃ value, outcome = .ok value ∧ change value = result := by
  cases outcome <;> simp [Except.map]

theorem mapError_eq_ok {Other : Type} {outcome : Except Fault Value}
    {change : Fault → Other} {value : Value} :
    outcome.mapError change = .ok value ↔ outcome = .ok value := by
  cases outcome with
  | error fault => exact ⟨nofun, nofun⟩
  | ok found => exact ⟨fun done => by cases done; rfl, fun done => by cases done; rfl⟩

/-- A chain succeeds if its first part does and the rest does after it. -/
theorem bind_ok {first : Except Fault Value} {next : Value → Except Fault Result} {value : Value}
    (done : first = .ok value) (rest : ∃ result, next value = .ok result) :
    ∃ result, (first >>= next) = .ok result := by
  obtain ⟨result, rest⟩ := rest
  exact ⟨result, (bind_eq_ok _ _ _).mpr ⟨value, done, rest⟩⟩

theorem require_ok {condition : Prop} [Decidable condition] (holds : condition) (fault : Fault) :
    require condition fault = .ok () := (require_eq_ok _ _ _).mpr holds

/-- Two chains that begin with one computation answer alike if they go on alike. -/
theorem map_bind_congr {One Two : Type} {first : Except Fault Value}
    {one : Value → Except Fault One} {two : Value → Except Fault Two} {left : One → Result}
    {right : Two → Result}
    (same : ∀ value, first = .ok value → (one value).map left = (two value).map right) :
    (first >>= one).map left = (first >>= two).map right := by
  cases first with
  | error => rfl
  | ok value => exact same value rfl

/-! ### Chains that fail -/

/-- A chain fails where its first part fails, or where the rest fails after it. -/
theorem bind_eq_error (first : Except Fault Value) (next : Value → Except Fault Result)
    (fault : Fault) :
    (first >>= next) = .error fault ↔
      first = .error fault ∨ ∃ value, first = .ok value ∧ next value = .error fault := by
  cases first <;> simp [bind, Except.bind]

theorem require_eq_error (condition : Prop) [Decidable condition] (fault other : Fault) :
    require condition fault = .error other ↔ ¬ condition ∧ fault = other := by
  unfold require
  by_cases holds : condition <;> simp [holds]

theorem expect_eq_error (found : Option Value) (fault other : Fault) :
    expect found fault = .error other ↔ found = none ∧ fault = other := by
  cases found <;> simp [expect]

end Store
