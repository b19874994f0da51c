/-
This file models how an amount is validated, for the decimal numbers of the
language, and settles for which of them the validation is exact: the context in
which it counts the decimal places keeps only so many digits.
-/

import SecondhandAgent.Decimals

namespace Negotiation

open Store Decimals

/-! ### Validation -/

/-- What ends a validation: the pricing error, or a signal of the arithmetic. -/
inductive AmountFailure where
  | invalidMoney (text : String)
  | signal (signal : Signal)
deriving DecidableEq

/-- An operation of the context, with the signals that it can raise. -/
def signalling {Value : Type} (outcome : Except Signal Value) : Except AmountFailure Value :=
  outcome.mapError .signal

/-- `ZERO_MONEY` -/
def zeroMoney : Rat := 0

/-- `MAX_MONEY` -/
def maxMoney : Rat := 999999999999 / 100

/-- `_validate_money` of a decimal number. -/
def validateMoney (fieldName : String) : Decimal → Except AmountFailure Decimal
  | .finite number => do
    require (¬ number.value < zeroMoney) (.invalidMoney (fieldName ++ " cannot be negative"))
    require (¬ maxMoney < number.value) (.invalidMoney (fieldName ++ " exceeds DECIMAL(12,2)"))
    let normal ← signalling (defaultContext.normalize number)
    require (¬ normal.exponent < -2)
      (.invalidMoney (fieldName ++ " cannot have more than two decimal places"))
    let stored ← signalling (defaultContext.quantize number (-2))
    pure (.finite stored)
  | _ => throw (.invalidMoney (fieldName ++ " must be finite"))

/-! ### What is expected of it -/

/-- The number is so many cents. -/
def IsCents (value : Decimal) (cents : Nat) : Prop :=
  ∃ number : Finite, value = .finite number ∧ number.value = scaled cents (-2)

/-- The number is finite, within the bounds and a whole number of cents. -/
def IsMoney (value : Decimal) : Prop := ∃ cents : Nat, cents ≤ 999999999999 ∧ IsCents value cents

/-- The two are finite and the same number. -/
def SameNumber (one two : Decimal) : Prop :=
  ∃ first second : Finite, one = .finite first ∧ two = .finite second ∧ first.value = second.value

/-- The validation returns just for amounts of money, and returns the amount; for all others it
raises the pricing error. -/
structure ValidatesExactly (fieldName : String) (value : Decimal) : Prop where
  returns : (∃ stored, validateMoney fieldName value = .ok stored) ↔ IsMoney value
  same : ∀ stored, validateMoney fieldName value = .ok stored → SameNumber stored value
  raises : ∀ fault, validateMoney fieldName value = .error fault →
    ∃ text, fault = .invalidMoney text

/-- The number is within the bounds and not a whole number of cents, but one is within half a unit
of the last digit that the context keeps of it. -/
def Deceptive (value : Decimal) : Prop :=
  ∃ number : Finite, value = .finite number ∧ 0 < number.value ∧ number.value ≤ maxMoney ∧
    ∃ cents : Nat, number.value ≠ scaled cents (-2) ∧
      2 * |number.value - scaled cents (-2)| ≤ (10 : Rat) ^ defaultContext.last number

/-! ### Amounts within the bounds -/

section

variable {number : Finite}

theorem value_of_positive (positive : 0 < number.value) :
    number.negative = false ∧ number.coefficient ≠ 0 ∧
      number.value = scaled number.coefficient number.exponent := by
  unfold Finite.value at *
  have nonneg := scaled_nonneg number.coefficient number.exponent
  cases sign : number.negative with
  | true =>
    rw [sign] at positive
    simp only [if_true] at positive
    linarith
  | false =>
    rw [sign] at positive
    simp only [Bool.false_eq_true, if_false] at positive ⊢
    refine ⟨trivial, fun zero => ?_, trivial⟩
    rw [zero] at positive
    simp [scaled] at positive

/-- An amount within the bounds has at most ten digits before the point. -/
theorem digits_of_le (nonzero : number.coefficient ≠ 0)
    (bound : scaled number.coefficient number.exponent ≤ maxMoney) :
    (digits number.coefficient : Int) + number.exponent ≤ 10 := by
  by_contra long
  have high : (10 : Rat) ^ (10 : Int) ≤ scaled number.coefficient number.exponent := by
    calc (10 : Rat) ^ (10 : Int) ≤
        10 ^ (((digits number.coefficient - 1 : Nat) : Int) + number.exponent) := by
          refine zpow_le_zpow_right₀ (by norm_num) ?_
          have : 1 ≤ digits number.coefficient := Nat.succ_pos _
          omega
      _ = ((10 ^ (digits number.coefficient - 1) : Nat) : Rat) * 10 ^ number.exponent := by
          rw [zpow_add₀ (by norm_num), zpow_natCast]
          push_cast
          ring
      _ ≤ scaled number.coefficient number.exponent := by
          unfold scaled
          have cast : ((10 ^ (digits number.coefficient - 1) : Nat) : Rat) ≤ number.coefficient :=
            Nat.cast_le.mpr (pow_digits_le nonzero)
          have unit : (0 : Rat) < 10 ^ number.exponent := by positivity
          exact mul_le_mul_of_nonneg_right cast unit.le
  unfold maxMoney at bound
  norm_num at high
  linarith

theorem last_of_le (nonzero : number.coefficient ≠ 0)
    (bound : scaled number.coefficient number.exponent ≤ maxMoney) :
    defaultContext.last number ≤ -18 := by
  have few := digits_of_le nonzero bound
  unfold Context.last Context.tiny defaultContext
  exact max_le (by dsimp only; omega) (by norm_num)

/-- An amount within the bounds passes the check of its places just when a whole number of cents
is within half a unit of the last digit that is kept of it. -/
theorem normalize_passes (nonzero : number.coefficient ≠ 0)
    (bound : scaled number.coefficient number.exponent ≤ maxMoney) :
    ∃ normal, defaultContext.normalize number = .ok normal ∧
      (-2 ≤ normal.exponent ↔ ∃ cents : Nat,
        2 * |scaled number.coefficient number.exponent - scaled cents (-2)| ≤
          (10 : Rat) ^ defaultContext.last number) := by
  have few := digits_of_le nonzero bound
  have last := last_of_le nonzero bound
  obtain ⟨normal, done, places⟩ := normalize_exponent defaultContext number nonzero
    (few.trans (by decide)) (show (-2 : Int) ≤ 0 by decide) (by decide)
  exact ⟨normal, done, places.trans (rounded_eq_iff defaultContext number (by omega))⟩

/-- Two whole numbers of cents are not within half a unit of the same number. -/
theorem cents_unique {one two : Nat} {last : Int} (low : last ≤ -18)
    (near : 2 * |scaled one (-2) - scaled two (-2)| ≤ (10 : Rat) ^ last) : one = two := by
  have small : 2 * |scaled one (-2) - scaled two (-2)| ≤ (10 : Rat) ^ ((-2 : Int) + (0 : Nat)) :=
    near.trans (zpow_le_zpow_right₀ (by norm_num) (by norm_num; omega))
  obtain ⟨above, below⟩ := near_iff.mp small
  omega

theorem cents_le {cents : Nat} (bound : scaled cents (-2) ≤ maxMoney) : cents ≤ 999999999999 := by
  unfold scaled maxMoney at bound
  norm_num at bound
  exact_mod_cast (by linarith : (cents : Rat) ≤ 999999999999)

theorem le_maxMoney {cents : Nat} (few : cents ≤ 999999999999) :
    scaled cents (-2) ≤ maxMoney := by
  have cast : (cents : Rat) ≤ 999999999999 := by exact_mod_cast few
  unfold scaled maxMoney
  norm_num
  linarith

/-- An amount of money is stored as it is. -/
theorem quantize_cents {cents : Nat} (nonzero : number.coefficient ≠ 0)
    (same : scaled number.coefficient number.exponent = scaled cents (-2))
    (few : cents ≤ 999999999999) :
    defaultContext.quantize number (-2) =
      .ok { number with coefficient := cents, exponent := -2 } := by
  have short : digits cents ≤ 12 := digits_le (by norm_num) (by omega)
  refine quantize_eq defaultContext number same nonzero (by decide) ?_ ?_
  · exact short.trans (by decide)
  · have : defaultContext.most = 999999 := rfl
    omega

end

/-! ### When it is exact -/

section

variable {fieldName : String} {number : Finite}

theorem validateMoney_inBounds (fieldName : String) (low : ¬ number.value < zeroMoney) (high : ¬ maxMoney < number.value)
    {normal : Finite} (normalized : defaultContext.normalize number = .ok normal) :
    validateMoney fieldName (.finite number) =
      if normal.exponent < -2 then
        .error (.invalidMoney (fieldName ++ " cannot have more than two decimal places"))
      else (signalling (defaultContext.quantize number (-2))).map .finite := by
  unfold validateMoney require signalling
  dsimp only
  rw [if_pos low, if_pos high, normalized]
  by_cases places : normal.exponent < -2
  · rw [if_pos places]
    simp only [bind, Except.bind, Except.mapError, if_neg (not_not.mpr places)]
  · rw [if_neg places]
    simp only [bind, Except.bind, Except.mapError, if_pos places]
    cases defaultContext.quantize number (-2) <;> rfl

/-- A validation that fails with the pricing error is as expected of what is no amount. -/
theorem ValidatesExactly.of_error {value : Decimal} {text : String}
    (refused : validateMoney fieldName value = .error (.invalidMoney text))
    (wrong : ¬ IsMoney value) : ValidatesExactly fieldName value where
  returns := ⟨fun ⟨stored, done⟩ => absurd (refused.symm.trans done) nofun, fun money => absurd money wrong⟩
  same stored done := absurd (refused.symm.trans done) nofun
  raises fault failed := by
    rw [refused] at failed
    cases failed
    exact ⟨text, rfl⟩

theorem IsMoney.bounds {value : Decimal} (money : IsMoney value) :
    ∃ number : Finite, value = .finite number ∧ 0 ≤ number.value ∧ number.value ≤ maxMoney := by
  obtain ⟨cents, few, number, made, same⟩ := money
  exact ⟨number, made, same ▸ scaled_nonneg cents (-2), same ▸ le_maxMoney few⟩

/-- Zero is stored, whatever its sign and its exponent. -/
theorem validateMoney_zero (fieldName : String) (zero : number.coefficient = 0) :
    validateMoney fieldName (.finite number) =
      .ok (.finite { number with exponent := -2 }) := by
  have value : number.value = 0 := by
    unfold Finite.value scaled
    rw [zero]
    simp
  have fixed : ∀ exponent : Int, defaultContext.fix { number with exponent } =
      .ok { number with exponent := min (max exponent defaultContext.tiny) defaultContext.most } := by
    intro exponent
    unfold Context.fix
    rw [if_pos zero]
  have normal : defaultContext.normalize number = .ok { number with exponent := 0 } := by
    unfold Context.normalize
    rw [fixed number.exponent]
    simp only [bind, Except.bind, zero, if_true]
    rfl
  rw [validateMoney_inBounds fieldName (by rw [value]; exact lt_irrefl _)
    (by rw [value]; unfold maxMoney; norm_num) normal,
    if_neg (show ¬ (0 : Int) < -2 by decide)]
  unfold Context.quantize require
  rw [if_pos (by decide), if_pos zero, fixed]
  rfl

theorem exact_of_negative (fieldName : String) (below : number.value < 0) :
    ValidatesExactly fieldName (.finite number) ∧ ¬ Deceptive (.finite number) := by
  have refused : validateMoney fieldName (.finite number) =
      .error (.invalidMoney (fieldName ++ " cannot be negative")) := by
    have low : ¬ ¬ number.value < zeroMoney := not_not.mpr below
    unfold validateMoney require
    dsimp only
    rw [if_neg low]
    rfl
  refine ⟨.of_error refused fun money => ?_, fun ⟨other, made, above, _⟩ => ?_⟩
  · obtain ⟨other, made, above, -⟩ := money.bounds
    cases made
    exact absurd above (not_le.mpr below)
  · cases made
    exact absurd above (not_lt.mpr below.le)

theorem exact_of_zero (fieldName : String) (zero : number.value = 0) :
    ValidatesExactly fieldName (.finite number) ∧ ¬ Deceptive (.finite number) := by
  have none_ : number.coefficient = 0 := by
    by_contra nonzero
    have above := scaled_pos nonzero number.exponent
    unfold Finite.value at zero
    split at zero <;> linarith
  have money : IsMoney (.finite number) := ⟨0, by norm_num, number, rfl, by simp [zero, scaled]⟩
  have done := validateMoney_zero fieldName none_
  refine ⟨⟨⟨fun _ => money, fun _ => ⟨_, done⟩⟩, fun stored returned => ?_,
    fun fault failed => by cases done.symm.trans failed⟩, ?_⟩
  · rw [done] at returned
    cases returned
    refine ⟨_, number, rfl, rfl, ?_⟩
    rw [zero]
    unfold Finite.value scaled
    rw [none_]
    simp
  · rintro ⟨other, ⟨⟩, above, -⟩
    exact absurd above (by rw [zero]; exact lt_irrefl 0)

theorem exact_of_large (fieldName : String) (above : maxMoney < number.value) :
    ValidatesExactly fieldName (.finite number) ∧ ¬ Deceptive (.finite number) := by
  have low : ¬ number.value < zeroMoney := by
    unfold zeroMoney
    unfold maxMoney at above
    linarith
  have refused : validateMoney fieldName (.finite number) =
      .error (.invalidMoney (fieldName ++ " exceeds DECIMAL(12,2)")) := by
    unfold validateMoney require
    dsimp only
    rw [if_pos low, if_neg (not_not.mpr above)]
    rfl
  refine ⟨.of_error refused fun money => ?_, fun ⟨other, made, _, below, _⟩ => ?_⟩
  · obtain ⟨other, made, -, below⟩ := money.bounds
    cases made
    exact absurd below (not_le.mpr above)
  · cases made
    exact absurd below (not_le.mpr above)

/-- Within the bounds the validation passes what rounds to whole cents. -/
theorem exact_iff_within (positive : 0 < number.value) (bound : number.value ≤ maxMoney) :
    ValidatesExactly fieldName (.finite number) ↔ ¬ Deceptive (.finite number) := by
  obtain ⟨sign, nonzero, value⟩ := value_of_positive positive
  have low : ¬ number.value < zeroMoney := not_lt.mpr positive.le
  have high : ¬ maxMoney < number.value := not_lt.mpr bound
  have last := last_of_le nonzero (value ▸ bound)
  obtain ⟨normal, normalized, passes⟩ := normalize_passes nonzero (value ▸ bound)
  have result := validateMoney_inBounds fieldName low high normalized
  rw [← value] at passes
  by_cases money : IsMoney (.finite number)
  · obtain ⟨cents, few, other, made, same⟩ := id money
    cases made
    -- an amount is within half a unit of itself, and of no other
    have near : -2 ≤ normal.exponent := passes.mpr ⟨cents, by
      rw [same, sub_self, abs_zero, mul_zero]
      positivity⟩
    rw [if_neg (not_lt.mpr near), quantize_cents nonzero (value ▸ same) few] at result
    have honest : ¬ Deceptive (.finite number) := by
      rintro ⟨again, made, -, -, more, different, close⟩
      cases made
      rw [same] at different close
      exact different (by rw [cents_unique last close])
    refine ⟨fun _ => honest, fun _ => ⟨⟨fun _ => money, fun _ => ⟨_, result⟩⟩,
      fun stored returned => ?_, fun fault failed => absurd (result.symm.trans failed) nofun⟩⟩
    rw [result] at returned
    cases returned
    refine ⟨_, number, rfl, rfl, ?_⟩
    rw [same]
    unfold Finite.value
    rw [if_neg (by rw [sign]; exact Bool.false_ne_true)]
  · constructor
    · rintro exact_ ⟨again, made, -, -, cents, -, close⟩
      cases made
      have near : -2 ≤ normal.exponent := passes.mpr ⟨cents, close⟩
      rw [if_neg (not_lt.mpr near)] at result
      cases quantized : signalling (defaultContext.quantize number (-2)) with
      | ok stored =>
        rw [quantized] at result
        exact money (exact_.returns.mp ⟨_, result⟩)
      | error fault =>
        rw [quantized] at result
        obtain ⟨text, rfl⟩ := exact_.raises fault result
        unfold signalling at quantized
        cases outcome : defaultContext.quantize number (-2) <;> rw [outcome] at quantized <;>
          cases quantized
    · intro honest
      have far : ¬ -2 ≤ normal.exponent := by
        intro near
        obtain ⟨cents, close⟩ := passes.mp near
        refine honest ⟨number, rfl, positive, bound, cents, fun same => ?_, close⟩
        exact money ⟨cents, cents_le (same ▸ bound), number, rfl, same⟩
      rw [if_pos (not_le.mp far)] at result
      exact .of_error result money

/-- The validation of a number is exact just when the number is not deceptive. -/
theorem validateMoney_exact (fieldName : String) (value : Decimal) :
    ValidatesExactly fieldName value ↔ ¬ Deceptive value := by
  have special : (∀ number, value ≠ .finite number) →
      validateMoney fieldName value = .error (.invalidMoney (fieldName ++ " must be finite")) →
      (ValidatesExactly fieldName value ↔ ¬ Deceptive value) := by
    intro infinite refused
    refine ⟨fun _ ⟨number, made, _⟩ => infinite number made, fun _ => .of_error refused ?_⟩
    exact fun money => let ⟨number, made, _⟩ := money.bounds; infinite number made
  cases value with
  | infinity negative => exact special nofun rfl
  | nan negative signaling payload => exact special nofun rfl
  | finite number =>
    rcases lt_trichotomy number.value 0 with below | zero | positive
    · obtain ⟨exact_, honest⟩ := exact_of_negative fieldName below
      exact iff_of_true exact_ honest
    · obtain ⟨exact_, honest⟩ := exact_of_zero fieldName zero
      exact iff_of_true exact_ honest
    · rcases le_or_gt number.value maxMoney with bound | above
      · exact exact_iff_within positive bound
      · obtain ⟨exact_, honest⟩ := exact_of_large fieldName above
        exact iff_of_true exact_ honest

end

/-- One, and a one at the thirtieth place after the point. -/
def deceptiveNumber : Decimal :=
  .finite { coefficient := 1000000000000000000000000000001, exponent := -30 }

/-- The number is not a whole number of cents, and passes as one. -/
theorem deceptiveNumber_passes :
    validateMoney "amount" deceptiveNumber = .ok (.finite { coefficient := 100, exponent := -2 }) ∧
      ¬ ValidatesExactly "amount" deceptiveNumber := by
  have passes : validateMoney "amount" deceptiveNumber =
      .ok (.finite { coefficient := 100, exponent := -2 }) := by decide +kernel
  refine ⟨passes, fun exact_ => ?_⟩
  obtain ⟨first, second, made, given, same⟩ := exact_.same _ passes
  cases made
  cases given
  exact absurd same (by decide +kernel)

end Negotiation
