import CurvePlot.Scalar
import Mathlib.Analysis.SpecialFunctions.Log.Base
import Mathlib.Analysis.SpecialFunctions.Pow.Real
import Mathlib.Analysis.SpecialFunctions.Trigonometric.Arctan
import Mathlib.Analysis.SpecialFunctions.Trigonometric.Inverse
/-!
# Exact arithmetic

The definitions that compute with doubles are written over any type of scalars. `Exact`
is the type over which they say what is computed when nothing is rounded: a real number,
or undefined. An operation outside its domain is undefined, and so is one on something
undefined: there are no infinities, and zero has no sign.

* A double is taken for the real number that it is (`Exact.ofFloat`).
* Powers of negative numbers are defined for whole exponents only.
* A comparison with something undefined does not hold.
-/

namespace CurvePlot

/-- A real number, or the value outside every domain. -/
inductive Exact where
  | undefined
  | number (r : ℝ)

namespace Exact

/-- A partial function of one number. What is undefined stays so. -/
def bind (a : Exact) (f : ℝ → Exact) : Exact :=
  match a with
  | undefined => undefined
  | number r => f r

open Classical in
/-- A number where the condition holds. -/
noncomputable def guarded (domain : Prop) (r : ℝ) : Exact := if domain then number r else undefined

/-- Where the condition holds, there is the number. -/
theorem guarded_of {domain : Prop} (h : domain) (r : ℝ) : guarded domain r = number r := if_pos h

open Classical in
/-- The power of two numbers. -/
noncomputable def power (r s : ℝ) : Exact :=
  if 0 < r then number (r ^ s)
  else if r = 0 then guarded (0 ≤ s) (0 ^ s)
  -- the power of a negative number, if the exponent is whole
  else guarded (s = ⌊s⌋) (r ^ ⌊s⌋)

/-- A positive number has all powers. -/
theorem power_of_pos {r : ℝ} (h : 0 < r) (s : ℝ) : power r s = number (r ^ s) := if_pos h

open Float.Model in
/-- The number that a double is. -/
noncomputable def ofFloat (v : Float) : Exact :=
  match v.toModel.unpack with
  | .finite sign mantissa exponent _ => number (sign.apply mantissa * 2 ^ exponent)
  | .zero _ => number 0
  | .infinity _ | .notANumber => undefined

/-- A finite double is its mantissa, with its sign, times a power of two. -/
theorem ofFloat_eq {v : Float} {sign : Float.Model.UnpackedFloat.Sign} {mantissa : ℕ} {exponent : ℤ}
    {h : 0 < mantissa} (hv : v.toModel.unpack = .finite sign mantissa exponent h) :
    ofFloat v = number (sign.apply mantissa * 2 ^ exponent) := by
  rw [ofFloat, hv]

/-- The value of an elementary function at a number. -/
noncomputable def elementary : Elementary → ℝ → Exact
  | .sin, r => number (Real.sin r)
  | .cos, r => number (Real.cos r)
  | .tan, r => guarded (Real.cos r ≠ 0) (Real.tan r)
  | .asin, r => guarded (-1 ≤ r ∧ r ≤ 1) (Real.arcsin r)
  | .acos, r => guarded (-1 ≤ r ∧ r ≤ 1) (Real.arccos r)
  | .atan, r => number (Real.arctan r)
  | .sinh, r => number (Real.sinh r)
  | .cosh, r => number (Real.cosh r)
  | .tanh, r => number (Real.tanh r)
  | .sqrt, r => guarded (0 ≤ r) (Real.sqrt r)
  | .cbrt, r => number (SignType.sign r * |r| ^ (1 / 3 : ℝ))
  | .abs, r => number |r|
  | .log, r => guarded (0 < r) (Real.logb 10 r)
  | .ln, r => guarded (0 < r) (Real.log r)
  | .exp, r => number (Real.exp r)
  | .floor, r => number ⌊r⌋
  | .ceil, r => number ⌈r⌉
  | .round, r => number ⌊r + 1 / 2⌋
  | .sign, r => number (SignType.sign r)

/-- The whole part, which lies towards zero. -/
noncomputable def whole (r : ℝ) : ℤ := if 0 ≤ r then ⌊r⌋ else ⌈r⌉

noncomputable instance : Scalar Exact where
  add a b := a.bind fun r => b.bind fun s => number (r + s)
  sub a b := a.bind fun r => b.bind fun s => number (r - s)
  mul a b := a.bind fun r => b.bind fun s => number (r * s)
  div a b := a.bind fun r => b.bind fun s => guarded (s ≠ 0) (r / s)
  neg a := a.bind fun r => number (-r)
  lt a b := ∃ r s : ℝ, a = number r ∧ b = number s ∧ r < s
  le a b := ∃ r s : ℝ, a = number r ∧ b = number s ∧ r ≤ s
  beq a b :=
    match a, b with
    | number r, number s => decide (r = s)
    | _, _ => false
  ofScientific mantissa sign exponent := number (OfScientific.ofScientific mantissa sign exponent)
  decLt _ _ := Classical.propDecidable _
  decLe _ _ := Classical.propDecidable _
  undefined := undefined
  isUndefined a := a matches undefined
  isFinite a := a matches number _
  ofFloat := ofFloat
  ofInt n := number n
  fma a b c := a.bind fun r => b.bind fun s => c.bind fun v => number (r * s + v)
  abs a := a.bind fun r => number |r|
  floor a := a.bind fun r => number ⌊r⌋
  ceil a := a.bind fun r => number ⌈r⌉
  round a := a.bind fun r => number (SignType.sign r * ⌊|r| + 1 / 2⌋)
  toNat a := match a with
    | number r => ⌊r⌋₊
    | undefined => 0
  toInt a := match a with
    | number r => whole r
    | undefined => 0
  pow a b := a.bind fun r => b.bind fun s => power r s
  apply f a := a.bind (elementary f)

section Laws

variable (r s : ℝ) (a b c : Exact)

/-- Numbers are added as real numbers. -/
@[simp]
theorem number_add : number r + number s = number (r + s) := rfl

/-- Numbers are subtracted as real numbers. -/
@[simp]
theorem number_sub : number r - number s = number (r - s) := rfl

/-- Numbers are multiplied as real numbers. -/
@[simp]
theorem number_mul : number r * number s = number (r * s) := rfl

/-- The sign of a number is that of the real number. -/
@[simp]
theorem neg_number : -number r = number (-r) := rfl

/-- Numbers are divided as real numbers, if not by zero. -/
theorem number_div (h : s ≠ 0) : number r / number s = number (r / s) := guarded_of h (r / s)

/-- Nothing is divided by zero. -/
theorem number_div_zero : number r / number 0 = undefined := if_neg (not_not_intro rfl)

/-- What is undefined makes a sum undefined. -/
theorem add_undefined : a + undefined = undefined := by cases a <;> rfl

/-- Powers of numbers are powers of real numbers, where these are defined. -/
@[simp]
theorem pow_number : Scalar.pow (number r) (number s) = power r s := rfl

/-- A decimal is the number that it is, without rounding. -/
theorem ofScientific_eq (mantissa exponent : ℕ) (sign : Bool) :
    (OfScientific.ofScientific mantissa sign exponent : Exact) =
      number (OfScientific.ofScientific mantissa sign exponent) := rfl

/-- The literal of zero. -/
theorem zero_literal : (0.0 : Exact) = number 0 := by
  rw [ofScientific_eq]
  norm_num

/-- The literal of one. -/
theorem one_literal : (1.0 : Exact) = number 1 := by
  rw [ofScientific_eq]
  norm_num

/-- The literal of two. -/
theorem two_literal : (2.0 : Exact) = number 2 := by
  rw [ofScientific_eq]
  norm_num

/-- Products are grouped either way. -/
theorem product_assoc : a * b * c = a * (b * c) := by
  rcases a with _ | r <;> rcases b with _ | s <;> rcases c with _ | v
  -- if any of the three is undefined, so are both products
  case number.number.number => exact congrArg number (mul_assoc r s v)
  all_goals rfl

/-- Products commute, the undefined ones as well. -/
theorem product_comm : a * b = b * a := by
  rcases a with _ | r <;> rcases b with _ | s
  case number.number => exact congrArg number (mul_comm r s)
  all_goals rfl

/-- A difference adds the number with the other sign. -/
theorem difference_eq : a - b = a + -b := by
  rcases a with _ | r <;> rcases b with _ | s
  case number.number => exact congrArg number (sub_eq_add_neg r s)
  all_goals rfl

/-- A sign before a product is one before its first factor. -/
theorem neg_product : -a * b = -(a * b) := by
  rcases a with _ | r <;> rcases b with _ | s
  case number.number => exact congrArg number (neg_mul r s)
  all_goals rfl

end Laws

section Whole

variable {r : ℝ}

/-- The whole part of a number that is not negative, as a count. -/
theorem toNat_floor (h : 0 ≤ r) : Scalar.toNat (Scalar.floor (number r)) = ⌊r⌋₊ := by
  have hcount : Scalar.toNat (Scalar.floor (number r)) = ⌊((⌊r⌋ : ℤ) : ℝ)⌋₊ := rfl
  -- the whole part is taken twice, as a whole number and as a count
  rw [hcount, ← natCast_floor_eq_intCast_floor h, Nat.floor_natCast]

/-- A number is rounded to a whole number at most a half away. -/
theorem exists_round (r : ℝ) :
    ∃ n : ℤ, Scalar.round (number r) = number n ∧ |r - n| ≤ 1 / 2 := by
  have hround : Scalar.round (number r) = number (SignType.sign r * ⌊|r| + 1 / 2⌋) := rfl
  -- numbers are rounded by their magnitude, so the sign decides
  rcases lt_trichotomy r 0 with hneg | rfl | hpos
  · refine ⟨-⌊-r + 1 / 2⌋, ?_, ?_⟩
    · rw [hround, sign_neg hneg, abs_of_neg hneg, SignType.coe_neg_one, neg_one_mul, Int.cast_neg]
    · have hlower := Int.floor_le (-r + 1 / 2)
      have hupper := Int.lt_floor_add_one (-r + 1 / 2)
      rw [Int.cast_neg, abs_le]
      constructor <;> linarith
  · refine ⟨0, ?_, ?_⟩
    · rw [hround, sign_zero, SignType.coe_zero, zero_mul, Int.cast_zero]
    · norm_num
  · refine ⟨⌊r + 1 / 2⌋, ?_, ?_⟩
    · rw [hround, sign_pos hpos, abs_of_pos hpos, SignType.coe_one, one_mul]
    · have hlower := Int.floor_le (r + 1 / 2)
      have hupper := Int.lt_floor_add_one (r + 1 / 2)
      rw [abs_le]
      constructor <;> linarith

/-- Two whole numbers that are near to each other are one. -/
theorem eq_of_near {n m : ℤ} (h : |(n : ℝ) - m| ≤ 1 / 2) : n = m := by
  have hcast : |n - m| < 1 := by
    have hlt : |((n - m : ℤ) : ℝ)| < 1 := by
      rw [Int.cast_sub]
      linarith
    exact_mod_cast hlt
  exact sub_eq_zero.mp (Int.abs_lt_one_iff.mp hcast)

/-- Whole numbers are rounded to themselves. -/
theorem round_whole (n : ℤ) : Scalar.round (number n) = number n := by
  obtain ⟨m, hround, hnear⟩ := exists_round n
  rw [hround, eq_of_near hnear]

end Whole

section Order

variable {r s : ℝ} {a b : Exact}

/-- A comparison holds between numbers only. -/
theorem le_iff : a ≤ b ↔ ∃ r s : ℝ, a = number r ∧ b = number s ∧ r ≤ s := Iff.rfl

/-- What is above zero is a number that is. -/
theorem zero_lt_iff : 0.0 < a ↔ ∃ r : ℝ, a = number r ∧ 0 < r := by
  rw [zero_literal]
  constructor
  · rintro ⟨zero, r, hzero, rfl, hr⟩
    exact ⟨r, rfl, number.inj hzero ▸ hr⟩
  · rintro ⟨r, rfl, hr⟩
    exact ⟨0, r, rfl, rfl, hr⟩

/-- Numbers compare as real numbers. -/
@[simp]
theorem number_le : number r ≤ number s ↔ r ≤ s := by
  constructor
  · rintro ⟨_, _, hr, hs, h⟩
    rwa [number.inj hr, number.inj hs]
  · intro h
    exact ⟨r, s, rfl, rfl, h⟩

/-- Numbers compare strictly as real numbers. -/
@[simp]
theorem number_lt : number r < number s ↔ r < s := by
  constructor
  · rintro ⟨_, _, hr, hs, h⟩
    rwa [number.inj hr, number.inj hs]
  · intro h
    exact ⟨r, s, rfl, rfl, h⟩

/-- Only numbers are equal to one another. -/
theorem beq_iff : (a == b) = true ↔ ∃ r : ℝ, a = number r ∧ b = number r := by
  constructor
  · intro h
    rcases a with _ | r <;> rcases b with _ | s
    case number.number => exact ⟨r, rfl, congrArg number (of_decide_eq_true h).symm⟩
    all_goals exact absurd h Bool.false_ne_true
  · rintro ⟨r, rfl, rfl⟩
    exact decide_eq_true rfl

/-- Two numbers are apart by no more than a product of numbers, or there is nothing to compare. -/
theorem exists_of_abs_sub_le {t : Exact} (h : Scalar.abs (a - b) ≤ t * number r) :
    ∃ u v w : ℝ, a = number u ∧ b = number v ∧ t = number w ∧ |u - v| ≤ w * r := by
  obtain ⟨_, _, hleft, hright, hle⟩ := le_iff.mp h
  -- a difference with something undefined is undefined, and that compares with nothing
  rcases a with _ | u
  case undefined => cases hleft
  rcases b with _ | v
  case undefined => cases hleft
  rcases t with _ | w
  case undefined => cases hright
  exact ⟨u, v, w, rfl, rfl, rfl, number_le.mp h⟩

end Order

end Exact

end CurvePlot
