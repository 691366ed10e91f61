import CurvePlot.Double.Distance
import CurvePlot.Proofs.Double.Bounds
/-!
# The length of a vector

The sides of a vector are scaled before they are squared, and the root of the squares is corrected
by its error (`correctedRoot`). All along the way there are differences that would be undefined if
both sides of them were infinite. In units of `2 ^ 510` (`span`) the sides are no longer than two
and the root is no longer than three (`sqrt_bounds`), while a product is finite as long as there are
fewer than 16 squares of the unit in it (`isFinite_mul_of_span`). So one side of each difference is
finite, and the length of a vector is a number if its sides are (`isNumber_hypot`).

A square root is irrational as a rule. It is rounded as a fraction is that lies between the same
whole multiples of the unit of the last place (`exists_shows_sqrt`), and that is all that the
bounds have to know.

The length depends on the magnitudes of the sides only, and rounding does not prefer a sign. So
a distance is the same from either end (`hypot_sub_comm`).
-/

namespace CurvePlot.Double

open Float.Model (Format UnpackedFloat)
open Float.Model.UnpackedFloat (Sign Accuracy)

/-! ### Square roots -/

/-- The fraction that is noted of a root keeps it on the same side of every whole number. -/
theorem exists_shows_sqrt (n : ℕ) : ∃ q : ℚ,
    Shows q (.ofMantissaAndAccuracy n.sqrt (if n - n.sqrt * n.sqrt = 0 then .exact
      else .inexact (if n - n.sqrt * n.sqrt ≤ n.sqrt then .lt else .gt))) ∧
    n.sqrt ≤ q ∧ ∀ k : ℕ, n ≤ k * k → q ≤ k := by
  -- the remainder is what is left of the number beside the square
  have hle : n.sqrt * n.sqrt ≤ n := Nat.sqrt_le n
  generalize n.sqrt = root at hle ⊢
  split
  · -- nothing is left, so the root is whole
    refine ⟨root, .exact rfl, le_rfl, fun k hk => ?_⟩
    exact_mod_cast Nat.mul_self_le_mul_self_iff.mp (hle.trans hk)
  · next hrem =>
    have hsucc (k : ℕ) (hk : n ≤ k * k) : (root : ℚ) + 1 ≤ k := by
      exact_mod_cast Nat.mul_self_lt_mul_self_iff.mp (by omega : root * root < k * k)
    -- less than half of the way to the next whole number, or more
    split
    · refine ⟨root + 1 / 4, .below (by linarith) (by linarith), by linarith, fun k hk => ?_⟩
      linarith [hsucc k hk]
    · refine ⟨root + 3 / 4, .above (by linarith) (by linarith), by linarith, fun k hk => ?_⟩
      linarith [hsucc k hk]

/-- A square root is computed to as many bits as are kept, and counted in units that are small
against it. -/
theorem exists_rounds_sqrt {m : ℕ} {e : ℤ} (hm : 0 < m) (hc : Canonical m e) (he : e ≤ 971) :
    ∃ q : ℚ, Rounds q (repack (UnpackedFloat.sqrt Format.binary64 (.finite .positive m e hm))) ∧
      2 ^ (-538 : ℤ) ≤ q ∧
      ∀ k : ℕ, (m * 2 ^ e : ℚ) ≤ (k * 2 ^ (485 : ℤ)) ^ 2 → q ≤ k * 2 ^ (485 : ℤ) := by
  -- the exponent is halved, which takes an even one, and as many bits are kept as there are
  obtain ⟨t, ht⟩ : ∃ t : ℤ, t = min (e / 2) (max ((m.log2 + 1 + e + 1) / 2 - 53) (-1074)) :=
    ⟨_, rfl⟩
  obtain ⟨n, hn⟩ : ∃ n, n = m <<< (e - 2 * t).toNat := ⟨_, rfl⟩
  have heq : UnpackedFloat.sqrt Format.binary64 (.finite .positive m e hm) =
      UnpackedFloat.roundWithAccuracy Format.binary64 .positive n.sqrt t
        (if n - n.sqrt * n.sqrt = 0 then .exact
          else .inexact (if n - n.sqrt * n.sqrt ≤ n.sqrt then .lt else .gt)) := by
    subst hn ht
    rfl
  -- the bounds of these exponents, for `omega`
  have hge := hc.ge
  have hunits : t ≤ 485 ∧ 2 * t ≤ e ∧ -590 ≤ t := by omega
  -- the number has at least 105 bits in front of the point now, and its root has 53
  have hroot : 2 ^ 52 ≤ n.sqrt := by
    have hlog : 104 ≤ m.log2 + (e - 2 * t).toNat := by omega
    rw [← log2_mul_two_pow hm.ne', ← Nat.shiftLeft_eq, ← hn] at hlog
    have hne : n ≠ 0 := by
      rintro rfl
      exact absurd hlog (by decide)
    have hlong : 2 ^ 104 ≤ n := (Nat.le_log2 hne).mp hlog
    exact Nat.le_sqrt.mpr hlong
  have hkept : t ≤ keptExponent n.sqrt t := by
    have hlog : 52 ≤ n.sqrt.log2 := (Nat.le_log2 (by omega)).mpr hroot
    unfold keptExponent
    omega
  have hvalue : (m * 2 ^ e : ℚ) = n * (2 ^ t * 2 ^ t) := by
    -- the number is shifted to the exponent of the square of the root's unit
    rw [mul_two_pow_of_le m hunits.2.1, hn, Nat.shiftLeft_eq, Nat.cast_mul, Nat.cast_pow,
      Nat.cast_two, ← zpow_add₀ two_ne_zero, two_mul]
  have hunit : (0 : ℚ) < 2 ^ t := by positivity
  obtain ⟨q, hshows, hlower, hupper⟩ := exists_shows_sqrt n
  have hround := rounds_round .positive hshows hkept (.inl (by omega))
  rw [show unit .positive = 1 from rfl, Int.cast_one, one_mul, ← heq] at hround
  refine ⟨q * 2 ^ t, hround, ?_, fun k hk => ?_⟩
  · -- the root has all of its bits, so it is not small
    have hroot' : (2 : ℚ) ^ 52 ≤ q := le_trans (by exact_mod_cast hroot) hlower
    calc (2 : ℚ) ^ (-538 : ℤ) ≤ 2 ^ (52 + t) := zpow_le_zpow_right₀ (by norm_num) (by omega)
      _ = 2 ^ 52 * 2 ^ t := by rw [zpow_add₀ two_ne_zero]; rfl
      _ ≤ q * 2 ^ t := mul_le_mul_of_nonneg_right hroot' hunit.le
  · -- the bound is counted in the units of the root
    have hscale : (k * 2 ^ (485 : ℤ) : ℚ) = (k * 2 ^ (485 - t).toNat : ℕ) * 2 ^ t := by
      rw [mul_two_pow_of_le k hunits.1, Nat.cast_mul, Nat.cast_pow, Nat.cast_two]
    rw [hvalue, hscale, pow_two, mul_mul_mul_comm] at hk
    have hle := le_of_mul_le_mul_right hk (mul_pos hunit hunit)
    rw [hscale]
    exact mul_le_mul_of_nonneg_right (hupper _ (by exact_mod_cast hle)) hunit.le

/-- **The square root of a finite double** that is above zero. -/
theorem rounds_float_sqrt {v : Float} (hv : v.isFinite = true) (hpos : 0 < toRat v) :
    ∃ q : ℚ, Rounds q v.sqrt.toModel.unpack ∧ 2 ^ (-538 : ℤ) ≤ q ∧
      ∀ k : ℕ, toRat v ≤ (k * 2 ^ (485 : ℤ)) ^ 2 → q ≤ k * 2 ^ (485 : ℤ) := by
  obtain ⟨m, e, hm, hunpack, hc, he, hvalue⟩ := exists_toRat_eq hv hpos
  have hsqrt : v.sqrt.toModel.unpack =
      repack (UnpackedFloat.sqrt Format.binary64 v.toModel.unpack) := rfl
  rw [hsqrt, hunpack, hvalue]
  exact exists_rounds_sqrt hm hc he

/-! ### Lengths -/

/-- What lengths are measured in where their squares must not leave the range: the largest
doubles are just below 16 squares of it. -/
def span : ℚ := 2 ^ (510 : ℤ)

/-- The unit is above zero. -/
theorem span_pos : 0 < span := by
  unfold span
  positivity

/-- Whole multiples of the unit are doubles. -/
theorem representable_mul_span {n : ℕ} (hn : n < 2 ^ 53) : Representable (n * span) :=
  representable_mul_two_pow hn (by decide) (by decide)

/-- So are fewer than sixteen squares of it. -/
theorem representable_mul_span_sq {n : ℕ} (hn : n < 16) : Representable (n * (span * span)) := by
  have h := representable_mul_two_pow (n := n * 2 ^ 49) (e := 971) (by omega) (by decide) le_rfl
  rw [Nat.cast_mul, Nat.cast_pow, Nat.cast_two, mul_assoc, ← zpow_natCast,
    ← zpow_add₀ two_ne_zero] at h
  rw [span, ← zpow_add₀ two_ne_zero]
  exact h

/-- Twice the unit is a double. -/
theorem representable_two_span : Representable (2 * span) :=
  representable_mul_span (n := 2) (by decide)

/-- Three times the unit is a double. -/
theorem representable_three_span : Representable (3 * span) :=
  representable_mul_span (n := 3) (by decide)

/-- Four times the unit is a double. -/
theorem representable_four_span : Representable (4 * span) :=
  representable_mul_span (n := 4) (by decide)

/-- Six times the unit is a double. -/
theorem representable_six_span : Representable (6 * span) :=
  representable_mul_span (n := 6) (by decide)

/-- To double is one product. -/
theorem rounds_two_mul {v : Float} (hv : v.isFinite = true) :
    Rounds (2 * toRat v) (2.0 * v).toModel.unpack := by
  have htwo : toRat 2.0 = 2 := by
    rw [toRat_of_unpack (e := -51) rfl]
    rfl
  exact htwo ▸ rounds_float_mul rfl hv

/-- To take four times is one product as well. -/
theorem rounds_four_mul {v : Float} (hv : v.isFinite = true) :
    Rounds (4 * toRat v) (4.0 * v).toModel.unpack := by
  have hfour : toRat 4.0 = 4 := by
    rw [toRat_of_unpack (e := -50) rfl]
    norm_num
  exact hfour ▸ rounds_float_mul rfl hv

/-- Products of lengths are finite if there are not too many squares of the unit in them. -/
theorem isFinite_mul_of_span {v w : Float} (hv : v.isFinite = true) (hw : w.isFinite = true)
    {k n : ℕ} (hle : |toRat v| ≤ k * span) (hle' : |toRat w| ≤ n * span) (h : k * n < 16) :
    (v * w).isFinite = true := by
  have hspan := span_pos
  refine (rounds_float_mul hv hw).isFinite_of_abs_le (representable_mul_span_sq h) ?_
  calc |toRat v * toRat w| = |toRat v| * |toRat w| := abs_mul _ _
    _ ≤ k * span * (n * span) := mul_le_mul hle hle' (abs_nonneg _)
      (mul_nonneg (Nat.cast_nonneg k) hspan.le)
    _ = (k * n : ℕ) * (span * span) := by push_cast; ring

section Root

variable {a b h : Float} (ha : a.isFinite = true) (hb : b.isFinite = true) (hb0 : 0 ≤ toRat b)
  (hba : toRat b ≤ toRat a) (hupper : toRat a ≤ 2 * span)
include ha hb hb0 hba hupper

section Error

variable (hh : h.isFinite = true) (hpos : 0 < toRat h) (hle : toRat h ≤ 3 * span)
include hh hpos hle

/-- The error of the root, if the shorter side is at least half of it. -/
theorem isNumber_error_of_le :
    (a * (2.0 * (h - b) - a) + ((h - b) - 2.0 * (a - b)) * (h - b)).toModel.unpack ≠
      .notANumber := by
  -- each difference on the way is bounded before the next one is taken
  have hspan := span_pos
  obtain ⟨hd, hd0, hd1⟩ := (rounds_float_sub hh hb).between representable_two_span.neg
    representable_three_span (by linarith) (by linarith)
  generalize h - b = d at hd hd0 hd1 ⊢
  obtain ⟨h2d, h2d0, h2d1⟩ := (rounds_two_mul hd).between representable_four_span.neg
    representable_six_span (by linarith) (by linarith)
  obtain ⟨hx, hx0, hx1⟩ := (rounds_float_sub h2d ha).between representable_six_span.neg
    representable_six_span (by linarith) (by linarith)
  have hax : (a * (2.0 * d - a)).isFinite = true :=
    isFinite_mul_of_span ha hx (k := 2) (n := 6) (abs_le.mpr ⟨by push_cast; linarith, hupper⟩)
      (abs_le.mpr ⟨hx0, hx1⟩) (by decide)
  obtain ⟨hab, hab0, hab1⟩ := (rounds_float_sub ha hb).between representable_zero
    representable_two_span (by linarith) (by linarith)
  obtain ⟨h2ab, h2ab0, h2ab1⟩ := (rounds_two_mul hab).between representable_zero
    representable_four_span (by linarith) (by linarith)
  obtain ⟨hy, -⟩ := (rounds_float_sub hd h2ab).between representable_six_span.neg
    representable_six_span (by linarith) (by linarith)
  exact isNumber_add (isNumber_of_isFinite hax) (rounds_float_mul hy hd).isNumber (.inl hax)

/-- The error of the root, if the shorter side is less than half of it. -/
theorem isNumber_error_of_lt (hlt : toRat (2.0 * b) < toRat h) :
    (2.0 * (h - a) * (a - 2.0 * b) +
      ((4.0 * (h - a) - b) * b + (h - a) * (h - a))).toModel.unpack ≠ .notANumber := by
  have hspan := span_pos
  have hsub := rounds_float_sub hh ha
  have htwice := rounds_two_mul hb
  obtain ⟨hd, hd0, hd1⟩ := hsub.between representable_two_span.neg representable_three_span
    (by linarith) (by linarith)
  obtain ⟨h2b, h2b0, -⟩ := htwice.between representable_zero representable_four_span
    (by linarith) (by linarith)
  -- much of the root is left beside a short side only, and a short side is soon taken twice away
  have hfirst : (2.0 * (h - a) * (a - 2.0 * b)).isFinite = true := by
    by_cases hshort : toRat a ≤ span
    · -- a short side is taken from the root, which may be long
      obtain ⟨h2d, h2d0, h2d1⟩ := (rounds_two_mul hd).between representable_six_span.neg
        representable_six_span (by linarith) (by linarith)
      obtain ⟨-, -, h2b1⟩ := htwice.between representable_zero representable_two_span
        (by linarith) (by linarith)
      obtain ⟨hx, hx0, hx1⟩ := (rounds_float_sub ha h2b).between representable_two_span.neg
        representable_two_span (by linarith) (by linarith)
      exact isFinite_mul_of_span h2d hx (k := 6) (n := 2) (abs_le.mpr ⟨h2d0, h2d1⟩)
        (abs_le.mpr ⟨hx0, hx1⟩) (by decide)
    · -- a long side leaves little of it
      obtain ⟨-, hd0, hd1⟩ := hsub.between representable_two_span.neg representable_two_span
        (by linarith) (by linarith)
      obtain ⟨h2d, h2d0, h2d1⟩ := (rounds_two_mul hd).between representable_four_span.neg
        representable_four_span (by linarith) (by linarith)
      obtain ⟨hx, hx0, hx1⟩ := (rounds_float_sub ha h2b).between representable_three_span.neg
        representable_three_span (by linarith) (by linarith)
      exact isFinite_mul_of_span h2d hx (k := 4) (n := 3) (abs_le.mpr ⟨h2d0, h2d1⟩)
        (abs_le.mpr ⟨hx0, hx1⟩) (by decide)
  have hsquare : ((h - a) * (h - a)).isFinite = true := by
    have hdabs : |toRat (h - a)| ≤ (3 : ℕ) * span := abs_le.mpr ⟨by push_cast; linarith, hd1⟩
    exact isFinite_mul_of_span hd hd hdabs hdabs (by decide)
  have hrep12 : Representable (12 * span) := representable_mul_span (n := 12) (by decide)
  have hrep24 : Representable (24 * span) := representable_mul_span (n := 24) (by decide)
  obtain ⟨h4d, h4d0, h4d1⟩ := (rounds_four_mul hd).between hrep12.neg hrep12
    (by linarith) (by linarith)
  obtain ⟨hy, -⟩ := (rounds_float_sub h4d hb).between hrep24.neg hrep24 (by linarith) (by linarith)
  have hrest := isNumber_add (rounds_float_mul hy hb).isNumber (isNumber_of_isFinite hsquare)
    (.inr hsquare)
  exact isNumber_add (isNumber_of_isFinite hfirst) hrest (.inl hfirst)

end Error

section Whole

variable (hlower : 2 ^ (-500 : ℤ) ≤ toRat a)
include hlower

/-- Within these bounds the squares and their sum are finite, and the root is not zero. -/
theorem sqrt_bounds : (a * a + b * b).sqrt.isFinite = true ∧
    0 < toRat (a * a + b * b).sqrt ∧ toRat (a * a + b * b).sqrt ≤ 3 * span := by
  have hspan := span_pos
  have hpos : (0 : ℚ) < 2 ^ (-500 : ℤ) := by positivity
  have hleast : (2 : ℚ) ^ (-1000 : ℤ) = 2 ^ (-500 : ℤ) * 2 ^ (-500 : ℤ) := by
    rw [← zpow_add₀ two_ne_zero, show (-500 + -500 : ℤ) = -1000 from rfl]
  have hrep : Representable (2 ^ (-1000 : ℤ)) := representable_two_pow (by decide) (by decide)
  -- each square is bounded by that of twice the unit
  have hsquare {x : ℚ} (h0 : 0 ≤ x) (hx : x ≤ 2 * span) : x * x ≤ (4 : ℕ) * (span * span) := by
    calc x * x ≤ 2 * span * (2 * span) := mul_self_le_mul_self h0 hx
      _ = (4 : ℕ) * (span * span) := by push_cast; ring
  obtain ⟨hfin, hge, hle⟩ := (rounds_float_mul ha ha).between hrep
    (representable_mul_span_sq (by decide)) (hleast ▸ mul_self_le_mul_self hpos.le hlower)
    (hsquare (hb0.trans hba) hupper)
  obtain ⟨hfin', hge', hle'⟩ := (rounds_float_mul hb hb).between representable_zero
    (representable_mul_span_sq (by decide)) (mul_self_nonneg _) (hsquare hb0 (hba.trans hupper))
  obtain ⟨hfin, hge, hle⟩ := (rounds_float_add hfin hfin').between hrep
    (representable_mul_span_sq (n := 8) (by decide)) (hge.trans (le_add_of_nonneg_right hge'))
    (by push_cast at hle hle' ⊢; linarith only [hle, hle'])
  -- a sum of squares that is not zero has a root that is not zero
  have hpos' : (0 : ℚ) < 2 ^ (-1000 : ℤ) := by positivity
  obtain ⟨q, hround, hq, hq'⟩ := rounds_float_sqrt hfin (hpos'.trans_le hge)
  have hscale : ((3 * 2 ^ 25 : ℕ) * 2 ^ (485 : ℤ) : ℚ) = 3 * span := by
    rw [Nat.cast_mul, Nat.cast_pow, Nat.cast_two, mul_assoc, ← zpow_natCast,
      ← zpow_add₀ two_ne_zero]
    rfl
  have hroot : q ≤ 3 * span := by
    rw [← hscale]
    -- the bound of the root is that of the sum, and is counted in whole units
    refine hq' _ ?_
    rw [hscale]
    push_cast at hle
    linarith only [hle, mul_pos hspan hspan]
  obtain ⟨hfin, hge, hle⟩ := hround.between (representable_two_pow (by decide) (by decide))
    (representable_mul_span (n := 3) (by decide)) hq hroot
  have hleast' : (0 : ℚ) < 2 ^ (-538 : ℤ) := by positivity
  exact ⟨hfin, hleast'.trans_le hge, hle⟩

/-- The root of the squares is corrected by a number. -/
theorem isNumber_correctedRoot : (correctedRoot a b).toModel.unpack ≠ .notANumber := by
  obtain ⟨hfin, hpos, hle⟩ := sqrt_bounds ha hb hb0 hba hupper hlower
  have hspan := span_pos
  unfold correctedRoot
  generalize (a * a + b * b).sqrt = h at hfin hpos hle
  -- twice the root is finite, and not zero
  obtain ⟨hdouble, hdouble', -⟩ := (rounds_two_mul hfin).between (representable_toRat hfin)
    representable_six_span (by linarith) (by linarith)
  refine isNumber_sub (isNumber_div ?_ hdouble (hpos.trans_le hdouble').ne') hfin
  split
  · exact isNumber_error_of_le ha hb hb0 hba hupper hfin hpos hle
  · next hnot =>
    obtain ⟨h2b, -⟩ := (rounds_two_mul hb).between representable_zero
      representable_four_span (by linarith) (by linarith)
    rw [le_iff_toRat hfin h2b, not_le] at hnot
    exact isNumber_error_of_lt ha hb hb0 hba hupper hfin hpos hle hnot

end Whole
end Root

/-! ### Scaling -/

/-- The factor by which long sides are made shorter is a power of two. -/
theorem toRat_shrink : toRat shrink = 2 ^ (-600 : ℤ) := toRat_of_unpack (e := -652) rfl

/-- So is the part of the long side below which the short one does not count. -/
theorem toRat_negligible : toRat negligible = 2 ^ (-54 : ℤ) := toRat_of_unpack (e := -106) rfl

/-- Sides are long above twice the unit. -/
theorem toRat_large : toRat large = 2 * span := by
  rw [toRat_of_unpack (e := 459) rfl, span, mul_comm, ← zpow_add_one₀ two_ne_zero]
  rfl

/-- Sides are short below this power of two. -/
theorem toRat_tiny : toRat tiny = 2 ^ (-459 : ℤ) := toRat_of_unpack (e := -511) rfl

/-- And so it is if the sides are rounded from numbers within the bounds. -/
theorem isNumber_correctedRoot_of_rounds {a b : Float} {x y : ℚ}
    (hx : Rounds x a.toModel.unpack) (hy : Rounds y b.toModel.unpack) (hy0 : 0 ≤ y) (hyx : y ≤ x)
    (hlower : 2 ^ (-500 : ℤ) ≤ x) (hupper : x ≤ 2 * span) :
    (correctedRoot a b).toModel.unpack ≠ .notANumber := by
  obtain ⟨ha, ha0, ha1⟩ := hx.between (representable_two_pow (by decide) (by decide))
    representable_two_span hlower hupper
  obtain ⟨hb, hb0, -⟩ := hy.between representable_zero representable_two_span hy0
    (hyx.trans hupper)
  exact isNumber_correctedRoot ha hb hb0
    ((le_iff_toRat hb ha).mp (le_of_rounds hy hx hyx)) ha1 ha0

section Sides

variable {a b : Float} (ha : a.isFinite = true) (hb : b.isFinite = true) (hb0 : 0 ≤ toRat b)
  (hba : toRat b ≤ toRat a)
include ha hb hb0 hba

/-- Large sides are scaled down. -/
theorem isNumber_of_large (h : large < a) :
    (correctedRoot (a * shrink) (b * shrink) / shrink).toModel.unpack ≠ .notANumber := by
  have hshrink : shrink.isFinite = true := rfl
  have hscale : (0 : ℚ) < toRat shrink := by
    rw [toRat_shrink]
    positivity
  -- long sides are shrunk to the middle of the range
  rw [lt_iff_toRat rfl ha, toRat_large] at h
  refine isNumber_div (isNumber_correctedRoot_of_rounds (rounds_float_mul ha hshrink)
    (rounds_float_mul hb hshrink) (mul_nonneg hb0 hscale.le)
    (mul_le_mul_of_nonneg_right hba hscale.le) ?_ ?_) hshrink hscale.ne'
  · -- they are still not small
    rw [toRat_shrink] at hscale ⊢
    calc (2 : ℚ) ^ (-500 : ℤ) ≤ 2 ^ (511 + -600 : ℤ) :=
          zpow_le_zpow_right₀ (by norm_num) (by norm_num)
      _ = 2 * span * 2 ^ (-600 : ℤ) := by
          rw [span, mul_comm 2, ← zpow_add_one₀ two_ne_zero, ← zpow_add₀ two_ne_zero]
          rfl
      _ ≤ toRat a * 2 ^ (-600 : ℤ) := mul_le_mul_of_nonneg_right h.le hscale.le
  · -- and they are large no more
    have hpos : 0 < toRat a := lt_trans (mul_pos two_pos span_pos) h
    rw [toRat_shrink] at hscale ⊢
    calc toRat a * 2 ^ (-600 : ℤ) ≤ 2 ^ (1024 : ℤ) * 2 ^ (-600 : ℤ) :=
          mul_le_mul_of_nonneg_right (toRat_bounds ha hpos).2 hscale.le
      _ = 2 ^ (1024 + -600 : ℤ) := (zpow_add₀ two_ne_zero _ _).symm
      _ ≤ 2 ^ (510 + 1 : ℤ) := zpow_le_zpow_right₀ (by norm_num) (by norm_num)
      _ = 2 * span := by rw [zpow_add_one₀ two_ne_zero, mul_comm, span]

/-- Small sides are scaled up, unless the shorter one does not matter. -/
theorem isNumber_of_tiny (h : b < tiny) (hmatters : ¬b / negligible ≤ a) :
    (correctedRoot (a / shrink) (b / shrink) * shrink).toModel.unpack ≠ .notANumber := by
  have hshrink : shrink.isFinite = true := rfl
  have hscale : (0 : ℚ) < toRat shrink := by
    rw [toRat_shrink]
    positivity
  have hneg : (0 : ℚ) < toRat negligible := by
    rw [toRat_negligible]
    positivity
  rw [lt_iff_toRat hb rfl, toRat_tiny] at h
  have hquot := rounds_float_div hb (w := negligible) rfl hneg.ne'
  obtain ⟨hfin, -, hle⟩ := hquot.between representable_zero
    (representable_two_pow (e := -405) (by decide) (by decide)) (div_nonneg hb0 hneg.le) (by
      rw [toRat_negligible] at hneg ⊢
      rw [div_le_iff₀ hneg, ← zpow_add₀ two_ne_zero]
      exact h.le)
  -- the shorter side counts, so it is not zero and the longer one is not much longer
  rw [le_iff_toRat hfin ha, not_le] at hmatters
  have hpos : 0 < toRat b := by
    by_contra hnot
    have hzero : toRat b = 0 := le_antisymm (not_lt.mp hnot) hb0
    rw [hzero, zero_div] at hquot
    have hquot0 := (hquot.between representable_zero representable_zero le_rfl le_rfl).2.2
    linarith
  refine isNumber_mul (isNumber_correctedRoot_of_rounds (rounds_float_div ha hshrink hscale.ne')
    (rounds_float_div hb hshrink hscale.ne') (div_nonneg hb0 hscale.le)
    (div_le_div_of_nonneg_right hba hscale.le) ?_ ?_) hshrink hscale.ne'
  · -- grown sides are not small any more
    rw [toRat_shrink] at hscale ⊢
    rw [le_div_iff₀ hscale, ← zpow_add₀ two_ne_zero]
    calc (2 : ℚ) ^ (-500 + -600 : ℤ) ≤ 2 ^ (-1074 : ℤ) :=
          zpow_le_zpow_right₀ (by norm_num) (by norm_num)
      _ ≤ toRat b := (toRat_bounds hb hpos).1
      _ ≤ toRat a := hba
  · -- and they are not large, as the longer side is not much longer than the shorter one
    rw [toRat_shrink] at hscale ⊢
    rw [div_le_iff₀ hscale]
    calc toRat a ≤ 2 ^ (-405 : ℤ) := hmatters.le.trans hle
      _ ≤ 2 ^ (510 + 1 + -600 : ℤ) := zpow_le_zpow_right₀ (by norm_num) (by norm_num)
      _ = 2 * span * 2 ^ (-600 : ℤ) := by
          rw [zpow_add₀ two_ne_zero, zpow_add_one₀ two_ne_zero, mul_comm (2 ^ (510 : ℤ)), span]

end Sides

/-- **The length of a vector is a number** if its sides are finite and in order. -/
theorem isNumber_hypotOrdered {a b : Float} (ha : a.isFinite = true) (hb : b.isFinite = true)
    (hb0 : 0 ≤ toRat b) (hba : toRat b ≤ toRat a) :
    (hypotOrdered a b).toModel.unpack ≠ .notANumber := by
  have hsum := (rounds_float_add ha hb).isNumber
  unfold hypotOrdered
  -- long sides, short sides and others; in each case the shorter side may not count
  split
  · next hlarge =>
    split
    · exact hsum
    · exact isNumber_of_large ha hb hb0 hba hlarge
  · next hlarge =>
    split
    · next htiny =>
      split
      · exact hsum
      · next hmatters => exact isNumber_of_tiny ha hb hb0 hba htiny hmatters
    · next htiny =>
      split
      · -- the shorter side does not count, and the sides are added
        exact hsum
      · rw [lt_iff_toRat rfl ha, toRat_large, not_lt] at hlarge
        rw [lt_iff_toRat hb rfl, toRat_tiny, not_lt] at htiny
        refine isNumber_correctedRoot ha hb hb0 hba hlarge ?_
        exact (zpow_le_zpow_right₀ (by norm_num) (by norm_num)).trans (htiny.trans hba)

/-- **The length of a vector is a number** if its sides are. -/
theorem isNumber_hypot {x y : Float} (hx : x.isNaN = false) (hy : y.isNaN = false) :
    (hypot x y).toModel.unpack ≠ .notANumber := by
  unfold hypot
  split
  · exact nofun
  · next hinf =>
    -- both sides are finite, so their magnitudes are put in order
    rw [Bool.or_eq_true, not_or, Bool.not_eq_true, Bool.not_eq_true] at hinf
    obtain ⟨habs, hfin⟩ := toRat_abs (isFinite_iff.mpr ⟨hinf.1, hx⟩)
    obtain ⟨habs', hfin'⟩ := toRat_abs (isFinite_iff.mpr ⟨hinf.2, hy⟩)
    have h0 : 0 ≤ toRat x.abs := habs ▸ abs_nonneg _
    have h0' : 0 ≤ toRat y.abs := habs' ▸ abs_nonneg _
    rw [hx, hy, if_neg (by decide)]
    split
    · next hlt => exact isNumber_hypotOrdered hfin' hfin h0 ((lt_iff_toRat hfin hfin').mp hlt).le
    · next hlt =>
      rw [lt_iff_toRat hfin hfin', not_lt] at hlt
      exact isNumber_hypotOrdered hfin hfin' h0' hlt

/-! ### Turned round -/

section Turned

/-- Numbers at opposite places have the same magnitude. -/
theorem abs_eq_of_place {u v : UnpackedFloat} (hu : Packed u) (hv : Packed v)
    (hu' : u ≠ .notANumber) (hv' : v ≠ .notANumber) (h : place u = -place v) : u.abs = v.abs := by
  have hcompare := compare_place hu hv.neg hu' (isNumber_neg hv')
  rw [place_neg, compare_eq_iff_eq.mpr h] at hcompare
  have habs : v.neg.abs = v.abs := by cases v <;> rfl
  rcases eq_or_zero_of_compare hcompare with heq | ⟨s, s', hzero, hzero'⟩
  · rw [heq, habs]
  · rw [← habs, hzero, hzero']
    rfl

variable {v w : Float}

/-- A difference turned round has the same magnitude. -/
theorem abs_sub_comm (hv : v.isFinite = true) (hw : w.isFinite = true) :
    (v - w).abs = (w - v).abs := by
  have hsub := rounds_float_sub hv hw
  have hback := (rounds_float_sub hw hv).neg
  rw [neg_sub] at hback
  -- both are rounded, so they are at opposite places
  have hplace : place (v - w).toModel.unpack = -place (w - v).toModel.unpack := by
    rw [← place_neg]
    exact le_antisymm (hsub.mono hback le_rfl) (hback.mono hsub le_rfl)
  have habs := abs_eq_of_place (packed _) (packed _) hsub.isNumber
    (rounds_float_sub hw hv).isNumber hplace
  exact congrArg (fun a => Float.ofModel (.pack a)) habs

/-- A magnitude is infinite if the number is. -/
theorem isInf_abs (hv : v.toModel.unpack ≠ .notANumber) : v.abs.isInf = v.isInf := by
  have hpacked : Packed v.toModel.unpack.abs := by
    have h := packed v
    cases hu : v.toModel.unpack with
    | notANumber | infinity | zero => trivial
    | finite s m e hm =>
      rw [hu] at h
      exact h
  have hnumber : v.toModel.unpack.abs ≠ .notANumber := by
    cases hu : v.toModel.unpack with
    | notANumber => exact absurd hu hv
    | infinity | zero | finite => exact nofun
  show (repack v.toModel.unpack.abs).isInf = v.toModel.unpack.isInf
  rw [repack, hpacked.unpack_pack hnumber]
  cases v.toModel.unpack <;> rfl

/-- Only the magnitudes of the sides matter. -/
theorem hypot_congr {x y x' y' : Float} (hx : x.isNaN = false) (hy : y.isNaN = false)
    (hx' : x'.isNaN = false) (hy' : y'.isNaN = false) (habs : x.abs = x'.abs)
    (habs' : y.abs = y'.abs) : hypot x y = hypot x' y' := by
  -- that a side is infinite is told from its magnitude
  have hinf : x.isInf = x'.isInf := by
    rw [← isInf_abs (isNaN_eq_false_iff.mp hx), habs, isInf_abs (isNaN_eq_false_iff.mp hx')]
  have hinf' : y.isInf = y'.isInf := by
    rw [← isInf_abs (isNaN_eq_false_iff.mp hy), habs', isInf_abs (isNaN_eq_false_iff.mp hy')]
  unfold hypot
  rw [hinf, hinf', hx, hy, hx', hy', habs, habs', Bool.or_false, if_neg Bool.false_ne_true,
    if_neg Bool.false_ne_true]

variable {x y x' y' : Float}

/-- The difference of two finite doubles is a number. -/
theorem isNaN_sub (hv : v.isFinite = true) (hw : w.isFinite = true) : (v - w).isNaN = false :=
  isNaN_eq_false_iff.mpr (rounds_float_sub hv hw).isNumber

/-- **A distance is the same from either end.** -/
theorem hypot_sub_comm (hx : x.isFinite = true) (hy : y.isFinite = true)
    (hx' : x'.isFinite = true) (hy' : y'.isFinite = true) :
    hypot (x - x') (y - y') = hypot (x' - x) (y' - y) :=
  hypot_congr (isNaN_sub hx hx') (isNaN_sub hy hy') (isNaN_sub hx' hx) (isNaN_sub hy' hy)
    (abs_sub_comm hx hx') (abs_sub_comm hy hy')

/-- The difference of a double and itself is zero, of whatever sign. -/
theorem abs_sub_self (hv : v.isFinite = true) : (v - v).abs = (0.0 : Float).abs := by
  obtain ⟨s, hzero⟩ := unpack_sub_of_beq hv (beq_self_of_isFinite hv)
  have habs : (v - v).toModel.unpack.abs = (0.0 : Float).toModel.unpack.abs := by
    rw [hzero]
    rfl
  exact congrArg (fun a => Float.ofModel (.pack a)) habs

/-- **There is no distance from a point to itself.** -/
theorem hypot_sub_self (hx : x.isFinite = true) (hy : y.isFinite = true) :
    hypot (x - x) (y - y) = 0.0 :=
  calc hypot (x - x) (y - y) = hypot 0.0 0.0 := hypot_congr (isNaN_sub hx hx) (isNaN_sub hy hy) rfl
        rfl (abs_sub_self hx) (abs_sub_self hy)
    _ = 0.0 := by decide +kernel

end Turned

end CurvePlot.Double
