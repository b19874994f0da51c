/-
This file is a small theory of the decimal numbers of the language: a sign, a
coefficient of any length and an exponent, and a context that keeps so many
digits of a result. It says what the operations of a context make of a number
that has more digits than the context keeps, or an exponent below its least one.
-/

import Mathlib.Algebra.Order.Field.Power
import Mathlib.Data.Nat.Log
import Mathlib.Data.Rat.Floor
import Mathlib.Tactic.FieldSimp
import Mathlib.Tactic.Linarith
import Mathlib.Tactic.NormNum
import Mathlib.Tactic.Positivity
import Mathlib.Tactic.Ring
import SecondhandAgent.Outcome

namespace Decimals

open Store

/-! ### Numbers -/

/-- A finite number: `coefficient * 10 ^ exponent`, or its negative. -/
structure Finite where
  negative : Bool := false
  coefficient : Nat
  exponent : Int
deriving DecidableEq

inductive Decimal where
  | finite (number : Finite)
  | infinity (negative : Bool)
  | nan (negative signaling : Bool) (payload : Nat)
deriving DecidableEq

/-- The number that a coefficient and an exponent denote. -/
def scaled (coefficient : Nat) (exponent : Int) : Rat := coefficient * 10 ^ exponent

def Finite.value (number : Finite) : Rat :=
  if number.negative then -scaled number.coefficient number.exponent
  else scaled number.coefficient number.exponent

/-- How many digits a coefficient is written with. -/
def digits (coefficient : Nat) : Nat := Nat.log 10 coefficient + 1

/-! ### Contexts -/

/-- What a context keeps of a result: `prec`, `Emin` and `Emax`. -/
structure Context where
  precision : Nat
  least : Int
  most : Int
  positive : 0 < precision := by decide
  ordered : least < most := by decide

/-- The default context. -/
def defaultContext : Context where
  precision := 28
  least := -999999
  most := 999999

/-- `Etiny`: the least exponent of a result. -/
def Context.tiny (context : Context) : Int := context.least - context.precision + 1

/-- The signals that the context traps. -/
inductive Signal where
  | invalidOperation
  | overflow
deriving DecidableEq

/-- The coefficient without its last `drop` digits, rounded half to even. -/
def halfEven (coefficient drop : Nat) : Nat :=
  let quotient := coefficient / 10 ^ drop
  let rest := coefficient % 10 ^ drop
  if 10 ^ drop < 2 * rest ∨ (2 * rest = 10 ^ drop ∧ quotient % 2 = 1) then quotient + 1
  else quotient

/-- The exponent of the last digit that the context keeps. -/
def Context.last (context : Context) (number : Finite) : Int :=
  max (digits number.coefficient + number.exponent - context.precision) context.tiny

/-- `_fix`: a number within the context. -/
def Context.fix (context : Context) (number : Finite) : Except Signal Finite :=
  if number.coefficient = 0 then
    .ok { number with exponent := min (max number.exponent context.tiny) context.most }
  else if context.most < digits number.coefficient + number.exponent - 1 then .error .overflow
  else if number.exponent < context.last number then
    let rounded := halfEven number.coefficient (context.last number - number.exponent).toNat
    -- the carry of a rounding can make one digit too many
    let kept : Finite :=
      if context.precision < digits rounded then
        { number with coefficient := rounded / 10, exponent := context.last number + 1 }
      else { number with coefficient := rounded, exponent := context.last number }
    if context.most < digits kept.coefficient + kept.exponent - 1 then .error .overflow
    else .ok kept
  else .ok number

/-- The zeros at the end of a coefficient go into the exponent. -/
def stripZeros (most : Int) : Nat → Nat → Int → Nat × Int
  | 0, coefficient, exponent => (coefficient, exponent)
  | fuel + 1, coefficient, exponent =>
    if coefficient % 10 = 0 ∧ exponent < most then stripZeros most fuel (coefficient / 10) (exponent + 1)
    else (coefficient, exponent)

/-- `normalize` -/
def Context.normalize (context : Context) (number : Finite) : Except Signal Finite := do
  let fixed ← context.fix number
  if fixed.coefficient = 0 then pure { fixed with exponent := 0 }
  else
    let (coefficient, exponent) :=
      stripZeros context.most (digits fixed.coefficient) fixed.coefficient fixed.exponent
    pure { fixed with coefficient, exponent }

/-- `_rescale`: the number at another exponent. -/
def Finite.rescale (number : Finite) (exponent : Int) : Finite :=
  if number.coefficient = 0 then { number with exponent }
  else if exponent ≤ number.exponent then
    { number with
      coefficient := number.coefficient * 10 ^ (number.exponent - exponent).toNat, exponent }
  else
    { number with
      coefficient := halfEven number.coefficient (exponent - number.exponent).toNat, exponent }

/-- `quantize`, to the exponent of another number. -/
def Context.quantize (context : Context) (number : Finite) (exponent : Int) :
    Except Signal Finite := do
  require (context.tiny ≤ exponent ∧ exponent ≤ context.most) .invalidOperation
  if number.coefficient = 0 then context.fix { number with exponent }
  else
    let adjusted := digits number.coefficient + number.exponent - 1
    require (adjusted ≤ context.most) .invalidOperation
    require (adjusted - exponent + 1 ≤ context.precision) .invalidOperation
    let rescaled := number.rescale exponent
    require (digits rescaled.coefficient + exponent - 1 ≤ context.most ∧
      digits rescaled.coefficient ≤ context.precision) .invalidOperation
    context.fix rescaled

/-! ### Scales -/

theorem scaled_nonneg (coefficient : Nat) (exponent : Int) : 0 ≤ scaled coefficient exponent := by
  unfold scaled
  positivity

theorem scaled_pos {coefficient : Nat} (positive : coefficient ≠ 0) (exponent : Int) :
    0 < scaled coefficient exponent := by
  have above : (0 : Rat) < coefficient := Nat.cast_pos.mpr (Nat.pos_of_ne_zero positive)
  unfold scaled
  positivity

theorem scaled_mul (coefficient drop : Nat) (exponent : Int) :
    scaled (coefficient * 10 ^ drop) exponent = scaled coefficient (exponent + drop) := by
  unfold scaled
  rw [zpow_add₀ (by norm_num), zpow_natCast]
  push_cast
  ring

theorem scaled_of_le (coefficient : Nat) {low high : Int} (below : low ≤ high) :
    scaled coefficient high = scaled (coefficient * 10 ^ (high - low).toNat) low := by
  rw [scaled_mul, Int.toNat_of_nonneg (sub_nonneg.mpr below)]
  congr 1
  ring

theorem lt_pow_digits (coefficient : Nat) : coefficient < 10 ^ digits coefficient :=
  Nat.lt_pow_succ_log_self (by norm_num) coefficient

theorem pow_digits_le {coefficient : Nat} (positive : coefficient ≠ 0) :
    10 ^ (digits coefficient - 1) ≤ coefficient := Nat.pow_log_le_self 10 positive

/-! ### Rounding -/

/-- A rounded coefficient is off by at most half a unit of its last digit. -/
theorem halfEven_near (coefficient drop : Nat) :
    2 * coefficient ≤ 2 * (halfEven coefficient drop * 10 ^ drop) + 10 ^ drop ∧
      2 * (halfEven coefficient drop * 10 ^ drop) ≤ 2 * coefficient + 10 ^ drop := by
  have split : 10 ^ drop * (coefficient / 10 ^ drop) + coefficient % 10 ^ drop = coefficient :=
    Nat.div_add_mod coefficient (10 ^ drop)
  have small : coefficient % 10 ^ drop < 10 ^ drop := Nat.mod_lt _ (by positivity)
  unfold halfEven
  dsimp only
  generalize coefficient / 10 ^ drop = quotient at *
  generalize coefficient % 10 ^ drop = rest at *
  generalize 10 ^ drop = unit at *
  split
  · next up =>
    have sum : (quotient + 1) * unit = unit * quotient + unit := by ring
    rw [sum]
    omega
  · next down =>
    have sum : quotient * unit = unit * quotient := Nat.mul_comm quotient unit
    rw [sum]
    omega

/-- What is within half a unit of an even number of units is rounded to it. -/
theorem halfEven_eq {coefficient drop target : Nat} (even : target % 2 = 0)
    (above : 2 * coefficient ≤ 2 * (target * 10 ^ drop) + 10 ^ drop)
    (below : 2 * (target * 10 ^ drop) ≤ 2 * coefficient + 10 ^ drop) :
    halfEven coefficient drop = target := by
  have split : 10 ^ drop * (coefficient / 10 ^ drop) + coefficient % 10 ^ drop = coefficient :=
    Nat.div_add_mod coefficient (10 ^ drop)
  have small : coefficient % 10 ^ drop < 10 ^ drop := Nat.mod_lt _ (by positivity)
  unfold halfEven
  dsimp only
  generalize coefficient / 10 ^ drop = quotient at *
  generalize coefficient % 10 ^ drop = rest at *
  generalize 10 ^ drop = unit at *
  -- the target is the quotient or the one above it
  have low : target ≤ quotient + 1 := by
    by_contra more
    have wide : unit * (quotient + 2) ≤ target * unit := by
      rw [Nat.mul_comm target unit]
      exact Nat.mul_le_mul_left unit (by omega)
    have sum : unit * (quotient + 2) = unit * quotient + 2 * unit := by ring
    omega
  have high : quotient ≤ target := by
    by_contra fewer
    have wide : target * unit + unit ≤ unit * quotient := by
      calc target * unit + unit = unit * (target + 1) := by ring
        _ ≤ unit * quotient := Nat.mul_le_mul_left unit (by omega)
    omega
  obtain rfl | rfl : target = quotient ∨ target = quotient + 1 := by omega
  · have sum : target * unit = unit * target := Nat.mul_comm target unit
    rw [if_neg]
    rintro (up | ⟨-, odd⟩)
    · omega
    · omega
  · have sum : (quotient + 1) * unit = unit * quotient + unit := by ring
    rw [if_pos]
    omega

/-- A coefficient that ends in the zeros that are dropped is not changed by rounding. -/
theorem halfEven_exact (target drop : Nat) : halfEven (target * 10 ^ drop) drop = target := by
  have unit : 0 < 10 ^ drop := by positivity
  unfold halfEven
  dsimp only
  rw [Nat.mul_div_cancel target unit, Nat.mul_mod_left, if_neg]
  rintro (up | ⟨tie, -⟩) <;> omega

/-! ### Numbers in a context -/

theorem scaled_inj {one two : Nat} {exponent : Int}
    (same : scaled one exponent = scaled two exponent) : one = two := by
  have unit : (10 : Rat) ^ exponent ≠ 0 := by positivity
  exact Nat.cast_injective (mul_right_cancel₀ unit same)

theorem scaled_succ (coefficient : Nat) (exponent : Int) :
    scaled (coefficient * 10) exponent = scaled coefficient (exponent + 1) := by
  simpa using scaled_mul coefficient 1 exponent

theorem digits_le {coefficient count : Nat} (positive : 0 < count)
    (small : coefficient < 10 ^ count) : digits coefficient ≤ count := by
  by_cases zero : coefficient = 0
  · subst zero
    exact positive
  · exact Nat.log_lt_of_lt_pow zero small

theorem digits_mul_pow {coefficient : Nat} (nonzero : coefficient ≠ 0) (drop : Nat) :
    digits (coefficient * 10 ^ drop) = digits coefficient + drop := by
  induction drop with
  | zero => rw [pow_zero, Nat.mul_one, Nat.add_zero]
  | succ drop inductionHypothesis =>
    have positive : coefficient * 10 ^ drop ≠ 0 :=
      Nat.mul_ne_zero nonzero (pow_ne_zero drop (by norm_num))
    rw [Nat.pow_succ, ← Nat.mul_assoc]
    unfold digits at *
    rw [Nat.log_mul_base (by norm_num) positive, inductionHypothesis, Nat.add_assoc]

/-- Where a number starts does not depend on how it is written. -/
theorem digits_scaled {one two : Nat} {first second : Int} (nonzero : one ≠ 0)
    (same : scaled one first = scaled two second) :
    (digits one : Int) + first = digits two + second := by
  have positive : two ≠ 0 := by
    rintro rfl
    have above := scaled_pos nonzero first
    rw [same] at above
    simp [scaled] at above
  rcases le_total first second with low | high
  · rw [scaled_of_le two low] at same
    rw [scaled_inj same, digits_mul_pow positive]
    omega
  · rw [scaled_of_le one high] at same
    rw [← scaled_inj same, digits_mul_pow nonzero]
    omega

section

variable {context : Context} {number : Finite}

/-- The value of a number in the context. -/
def Context.rounded (context : Context) (number : Finite) : Rat :=
  if number.exponent < context.last number then
    scaled (halfEven number.coefficient (context.last number - number.exponent).toNat)
      (context.last number)
  else scaled number.coefficient number.exponent

/-- A rounded coefficient has no more digits than the context keeps, but for the carry. -/
theorem rounded_le (context : Context) (number : Finite)
    (long : number.exponent < context.last number) :
    halfEven number.coefficient (context.last number - number.exponent).toNat ≤
      10 ^ context.precision := by
  generalize dropped : (context.last number - number.exponent).toNat = drop
  have enough : digits number.coefficient ≤ drop + context.precision := by
    have least : (digits number.coefficient : Int) + number.exponent - context.precision ≤
        context.last number := le_max_left _ _
    omega
  have below : number.coefficient < 10 ^ context.precision * 10 ^ drop := by
    calc number.coefficient < 10 ^ digits number.coefficient := lt_pow_digits _
      _ ≤ 10 ^ (drop + context.precision) := Nat.pow_le_pow_right (by norm_num) enough
      _ = 10 ^ context.precision * 10 ^ drop := by rw [pow_add, Nat.mul_comm]
  have quotient : number.coefficient / 10 ^ drop < 10 ^ context.precision :=
    Nat.div_lt_of_lt_mul (by rwa [Nat.mul_comm] at below)
  unfold halfEven
  dsimp only
  split
  · exact quotient
  · exact quotient.le

/-- A number that is not too large is brought into the context by rounding it. -/
theorem fix_eq (context : Context) (number : Finite) (nonzero : number.coefficient ≠ 0)
    (small : digits number.coefficient + number.exponent ≤ context.most) :
    ∃ fixed, context.fix number = .ok fixed ∧ fixed.negative = number.negative ∧
      scaled fixed.coefficient fixed.exponent = context.rounded number := by
  unfold Context.fix Context.rounded
  rw [if_neg nonzero, if_neg (by omega)]
  by_cases long : number.exponent < context.last number
  · rw [if_pos long, if_pos long]
    dsimp only
    have atMost := rounded_le context number long
    generalize halfEven number.coefficient (context.last number - number.exponent).toNat = rounded
      at *
    have last : context.last number ≤ context.most - context.precision := by
      refine max_le (by omega) ?_
      have := context.ordered
      unfold Context.tiny
      omega
    by_cases carry : context.precision < digits rounded
    · rw [if_pos carry]
      have exact_ : rounded = 10 ^ context.precision := by
        refine le_antisymm atMost ?_
        by_contra less
        have := digits_le context.positive (not_le.mp less)
        omega
      obtain ⟨count, counted⟩ := Nat.exists_eq_succ_of_ne_zero context.positive.ne'
      have whole : rounded = 10 ^ count * 10 := by rw [exact_, counted, Nat.pow_succ]
      have tenth : rounded / 10 = 10 ^ count := by omega
      have short : digits (rounded / 10) ≤ context.precision := by
        rw [tenth, counted]
        exact digits_le count.succ_pos (Nat.pow_lt_pow_right (by norm_num) count.lt_succ_self)
      rw [if_neg (by dsimp only; omega)]
      refine ⟨_, rfl, rfl, ?_⟩
      dsimp only
      rw [← scaled_succ, tenth, whole]
    · rw [if_neg carry, if_neg (by dsimp only; omega)]
      exact ⟨_, rfl, rfl, rfl⟩
  · rw [if_neg long, if_neg long]
    exact ⟨_, rfl, rfl, rfl⟩

/-- Stripping zeros keeps the number, and leaves none that could be stripped. -/
theorem stripZeros_eq (most : Int) {fuel coefficient : Nat} (nonzero : coefficient ≠ 0)
    (enough : coefficient < 10 ^ fuel) (exponent : Int) :
    (stripZeros most fuel coefficient exponent).1 ≠ 0 ∧
      scaled (stripZeros most fuel coefficient exponent).1 (stripZeros most fuel coefficient exponent).2 =
        scaled coefficient exponent ∧
      ((stripZeros most fuel coefficient exponent).1 % 10 ≠ 0 ∨
        most ≤ (stripZeros most fuel coefficient exponent).2) := by
  induction fuel generalizing coefficient exponent with
  | zero => exact absurd enough (by omega)
  | succ fuel inductionHypothesis =>
    unfold stripZeros
    split
    · next more =>
      obtain ⟨tens, -⟩ := more
      have whole : coefficient = coefficient / 10 * 10 := by omega
      obtain ⟨positive, same, done⟩ :=
        @inductionHypothesis (coefficient / 10) (by omega) (by rw [Nat.pow_succ] at enough; omega)
          (exponent + 1)
      refine ⟨positive, same.trans ?_, done⟩
      rw [← scaled_succ, ← whole]
    · next stop =>
      refine ⟨nonzero, rfl, ?_⟩
      by_cases tens : coefficient % 10 = 0
      · exact .inr (not_lt.mp fun less => stop ⟨tens, less⟩)
      · exact .inl tens

/-- The exponent of a normalised number says which places its rounded value has. -/
theorem normalize_exponent (context : Context) (number : Finite) (nonzero : number.coefficient ≠ 0)
    (small : digits number.coefficient + number.exponent ≤ context.most) {place : Int}
    (negative : place ≤ 0) (within : place ≤ context.most) :
    ∃ normal, context.normalize number = .ok normal ∧
      (place ≤ normal.exponent ↔ ∃ count : Nat, context.rounded number = scaled count place) := by
  obtain ⟨fixed, done, -, value⟩ := fix_eq context number nonzero small
  unfold Context.normalize
  rw [done]
  by_cases zero : fixed.coefficient = 0
  · refine ⟨{ fixed with exponent := 0 }, by simp only [bind, Except.bind, if_pos zero]; rfl, ?_⟩
    refine ⟨fun _ => ⟨0, ?_⟩, fun _ => negative⟩
    rw [← value, zero]
    simp [scaled]
  · obtain ⟨positive, same, stripped⟩ := stripZeros_eq context.most zero
      (lt_pow_digits fixed.coefficient) fixed.exponent
    generalize ends : stripZeros context.most (digits fixed.coefficient) fixed.coefficient
      fixed.exponent = pair at positive same stripped
    refine ⟨{ fixed with coefficient := pair.1, exponent := pair.2 },
      by simp only [bind, Except.bind, if_neg zero, ends]; rfl, ?_⟩
    rw [← value, ← same]
    dsimp only
    constructor
    · exact fun low => ⟨_, scaled_of_le pair.1 low⟩
    · rintro ⟨count, equal⟩
      by_contra above
      have below := (not_le.mp above).le
      rw [scaled_of_le count below] at equal
      have tens : 10 ∣ pair.1 := by
        rw [scaled_inj equal]
        exact Dvd.dvd.mul_left (dvd_pow_self 10 (by omega)) count
      rcases stripped with last | most
      · exact last (Nat.mod_eq_zero_of_dvd tens)
      · omega

/-- Two numbers with the same exponent are within half a unit of a place, counted in it. -/
theorem near_iff {one two drop : Nat} {exponent : Int} :
    2 * |scaled one exponent - scaled two exponent| ≤ (10 : Rat) ^ (exponent + drop) ↔
      2 * one ≤ 2 * two + 10 ^ drop ∧ 2 * two ≤ 2 * one + 10 ^ drop := by
  have unit : (0 : Rat) < 10 ^ exponent := by positivity
  have distance : 2 * |scaled one exponent - scaled two exponent| =
      (2 * |(one : Rat) - two|) * 10 ^ exponent := by
    unfold scaled
    rw [← sub_mul, abs_mul, abs_of_pos unit]
    ring
  have bound : (10 : Rat) ^ (exponent + drop) = (10 ^ drop : Nat) * 10 ^ exponent := by
    rw [zpow_add₀ (by norm_num), zpow_natCast, mul_comm]
    push_cast
    ring
  have cast : 2 * |(one : Rat) - two| ≤ (10 ^ drop : Nat) ↔
      2 * (one : Rat) ≤ 2 * two + (10 ^ drop : Nat) ∧
        2 * (two : Rat) ≤ 2 * one + (10 ^ drop : Nat) := by
    constructor
    · intro near
      have low := neg_abs_le ((one : Rat) - two)
      have high := le_abs_self ((one : Rat) - two)
      constructor <;> linarith
    · rintro ⟨low, high⟩
      rcases abs_cases ((one : Rat) - two) with ⟨same, -⟩ | ⟨same, -⟩ <;> rw [same] <;> linarith
  rw [distance, bound, mul_le_mul_iff_left₀ unit, cast]
  norm_cast

/-- A number is rounded to a place that is well within what the context keeps just when a number
of that place is within half a unit of the last digit that is kept. -/
theorem rounded_eq_iff (context : Context) (number : Finite) {place : Int}
    (kept : context.last number < place) :
    (∃ count : Nat, context.rounded number = scaled count place) ↔
      ∃ count : Nat, 2 * |scaled number.coefficient number.exponent - scaled count place| ≤
        (10 : Rat) ^ context.last number := by
  unfold Context.rounded
  generalize context.last number = last at *
  obtain ⟨more, wide⟩ := Int.eq_ofNat_of_zero_le (sub_nonneg.mpr kept.le)
  have placed : place = last + more := by omega
  have even : ∀ count : Nat, count * 10 ^ more % 2 = 0 := by
    intro count
    obtain ⟨less, rfl⟩ := Nat.exists_eq_succ_of_ne_zero (show more ≠ 0 by omega)
    rw [Nat.pow_succ, ← Nat.mul_assoc]
    omega
  by_cases long : number.exponent < last
  · obtain ⟨drop, dropped⟩ := Int.eq_ofNat_of_zero_le (sub_nonneg.mpr long.le)
    have ends : last = number.exponent + drop := by omega
    have toNat : (last - number.exponent).toNat = drop := by omega
    have shift : ∀ count : Nat, scaled count last = scaled (count * 10 ^ drop) number.exponent :=
      fun count => by rw [scaled_mul, ends]
    rw [if_pos long, toNat]
    constructor
    · rintro ⟨count, equal⟩
      refine ⟨count, ?_⟩
      rw [← equal, shift, ends]
      exact near_iff.mpr (halfEven_near number.coefficient drop)
    · rintro ⟨count, near⟩
      refine ⟨count, ?_⟩
      rw [placed, ← scaled_mul, shift] at near
      rw [ends] at near
      obtain ⟨above, below⟩ := near_iff.mp near
      rw [halfEven_eq (even count) above below, placed, ← scaled_mul]
  · obtain ⟨pad, padded⟩ := Int.eq_ofNat_of_zero_le (sub_nonneg.mpr (not_lt.mp long))
    have starts : number.exponent = last + pad := by omega
    rw [if_neg long, starts, ← scaled_mul, placed]
    constructor
    · rintro ⟨count, equal⟩
      refine ⟨count, ?_⟩
      rw [equal, sub_self, abs_zero, mul_zero]
      positivity
    · rintro ⟨count, near⟩
      refine ⟨count, ?_⟩
      rw [← scaled_mul] at near ⊢
      obtain ⟨above, below⟩ := (@near_iff _ _ 0 last).mp (by simpa using near)
      rw [pow_zero] at above below
      congr 1
      omega

/-- A number that fits the place, and with it the context, is quantised to itself. -/
theorem quantize_eq (context : Context) (number : Finite) {place : Int} {count : Nat}
    (same : scaled number.coefficient number.exponent = scaled count place)
    (nonzero : number.coefficient ≠ 0)
    (range : context.tiny ≤ place ∧ place ≤ context.most)
    (fits : digits count ≤ context.precision) (small : digits count + place - 1 ≤ context.most) :
    context.quantize number place =
      .ok { number with coefficient := count, exponent := place } := by
  have adjusted := digits_scaled nonzero same
  have rescaled : number.rescale place = { number with coefficient := count, exponent := place } := by
    unfold Finite.rescale
    rw [if_neg nonzero]
    split
    · next low =>
      rw [scaled_of_le number.coefficient low] at same
      rw [scaled_inj same]
    · next high =>
      rw [scaled_of_le count (not_le.mp high).le] at same
      rw [scaled_inj same, halfEven_exact]
  have positive : count ≠ 0 := by
    rintro rfl
    have above := scaled_pos nonzero number.exponent
    rw [same] at above
    simp [scaled] at above
  have kept : ¬ place < context.last { number with coefficient := count, exponent := place } := by
    refine not_lt.mpr (max_le ?_ range.1)
    dsimp only
    omega
  unfold Context.quantize
  simp only [rescaled, if_neg nonzero]
  unfold require Context.fix
  rw [if_pos range, if_pos (by omega), if_pos (by omega), if_pos ⟨by omega, fits⟩]
  simp only [bind, Except.bind, if_neg positive, if_neg kept]
  rw [if_neg (by omega)]

end

end Decimals
