import CurvePlot.Decimal.Digits
import CurvePlot.Decimal.Literal
import CurvePlot.Proofs.Double.Nearest
import Mathlib.Data.List.TakeWhile
/-!
# The shortest digits read back

The digits of a number are chosen from the interval of all numbers that are rounded to it
(`rankOf_of_holds`), so whatever is chosen is rounded to the number again. That something can
be chosen is a matter of counting: the interval is as wide as one part in `2 ^ 53` of the
number, and seventeen digits are one part in `10 ^ 16` apart at most (`exists_within?`), since
the first of them is not placed above the number (`magnitude_le`).
-/

namespace CurvePlot.Decimal

open Double (Canonical Kept NearestEven RankOf rank)

/-! ### Powers of ten -/

/-- What stands under and over the line is a power of ten. -/
theorem unitFactors_eq (k : ℤ) : 0 < (unitFactors k).1 ∧ 0 < (unitFactors k).2 ∧
    (10 : ℚ) ^ k = (unitFactors k).2 / (unitFactors k).1 := by
  unfold unitFactors
  split
  · next h =>
    refine ⟨Nat.one_pos, Nat.pow_pos (by decide), ?_⟩
    obtain ⟨n, rfl⟩ := Int.eq_ofNat_of_zero_le h
    show (10 : ℚ) ^ (n : ℤ) = ((10 ^ n : ℕ) : ℚ) / (1 : ℕ)
    rw [zpow_natCast, Nat.cast_pow, Nat.cast_one, div_one, Nat.cast_ofNat]
  · next h =>
    refine ⟨Nat.pow_pos (by decide), Nat.one_pos, ?_⟩
    obtain ⟨n, hn⟩ := Int.eq_ofNat_of_zero_le (a := -k) (by omega)
    obtain rfl : k = -(n : ℤ) := by omega
    show (10 : ℚ) ^ (-(n : ℤ)) = ((1 : ℕ) : ℚ) / ((10 ^ (- -(n : ℤ)).toNat : ℕ) : ℚ)
    rw [neg_neg, Int.toNat_natCast, zpow_neg, zpow_natCast, Nat.cast_pow, Nat.cast_one,
      Nat.cast_ofNat, one_div]

theorem isBelow_iff {num den : ℕ} (hden : 0 < den) (k : ℤ) :
    isBelow num den k = true ↔ (num / den : ℚ) < 10 ^ k := by
  have hpos : (0 : ℚ) < den := by exact_mod_cast hden
  obtain ⟨hup, hdown, hpow⟩ := unitFactors_eq k
  have hup' : (0 : ℚ) < (unitFactors k).1 := by exact_mod_cast hup
  -- both cases multiply crosswise, and one of the factors is one
  have hboth : isBelow num den k =
      decide (num * (unitFactors k).1 < den * (unitFactors k).2) := by
    unfold isBelow unitFactors
    split <;> simp
  rw [hboth, decide_eq_true_iff, hpow, div_lt_div_iff₀ hpos hup', mul_comm ((unitFactors k).2 : ℚ)]
  exact_mod_cast Iff.rfl

/-- A power of ten is no greater than a power of two, as far as the exponents tell it. -/
theorem ten_zpow_le_two_zpow {j p : ℤ} (h : 196 * j ≤ 59 * p) (h' : 93 * j ≤ 28 * p) :
    (10 : ℚ) ^ j ≤ 2 ^ p := by
  have hswap (a : ℚ) (i : ℤ) (n : ℕ) : (a ^ i) ^ n = (a ^ n) ^ i := by
    rw [← zpow_natCast, ← zpow_mul, mul_comm, zpow_mul, zpow_natCast]
  -- `10 ^ 59` is just below `2 ^ 196`, and `10 ^ 28` just above `2 ^ 93`
  rcases le_or_gt 0 j with hj | hj
  · refine (pow_le_pow_iff_left₀ (by positivity) (by positivity) (by decide : 59 ≠ 0)).mp ?_
    calc ((10 : ℚ) ^ j) ^ 59 = (10 ^ 59) ^ j := hswap 10 j 59
      _ ≤ (2 ^ 196) ^ j := zpow_le_zpow_left₀ hj (by positivity) (by norm_num)
      _ = 2 ^ (196 * j) := by rw [zpow_mul]; rfl
      _ ≤ 2 ^ (59 * p) := zpow_le_zpow_right₀ (by norm_num) h
      _ = (2 ^ p) ^ 59 := by rw [mul_comm, zpow_mul]; rfl
  · refine (pow_le_pow_iff_left₀ (by positivity) (by positivity) (by decide : 28 ≠ 0)).mp ?_
    have hneg : (0 : ℤ) ≤ -j := by omega
    calc ((10 : ℚ) ^ j) ^ 28 = ((10 ^ 28) ^ (-j))⁻¹ := by rw [hswap, zpow_neg, inv_inv]
      _ ≤ ((2 ^ 93) ^ (-j))⁻¹ :=
        inv_anti₀ (by positivity) (zpow_le_zpow_left₀ hneg (by positivity) (by norm_num))
      _ = 2 ^ (93 * j) := by rw [zpow_neg, inv_inv, zpow_mul]; rfl
      _ ≤ 2 ^ (28 * p) := zpow_le_zpow_right₀ (by norm_num) h'
      _ = (2 ^ p) ^ 28 := by rw [mul_comm, zpow_mul]; rfl

/-- **The first digit is not placed above the number.** -/
theorem magnitude_le {num den : ℕ} (hnum : 0 < num) (hden : 0 < den)
    (hupper : num.log2 ≤ den.log2 + 1100) (hlower : den.log2 ≤ num.log2 + 1100) :
    (10 : ℚ) ^ magnitude num den ≤ num / den := by
  have hnot {k : ℤ} (h : ¬isBelow num den k = true) : (10 : ℚ) ^ k ≤ num / den :=
    not_lt.mp ((isBelow_iff hden k).not.mp h)
  unfold magnitude
  dsimp only
  split
  · -- the binary logarithms place the first digit up to one
    have hden' : (den : ℚ) ≤ 2 ^ (den.log2 + 1) := by exact_mod_cast Nat.lt_log2_self.le
    have hnum' : (2 : ℚ) ^ num.log2 ≤ num := by exact_mod_cast Nat.log2_self_le hnum.ne'
    calc (10 : ℚ) ^ (((num.log2 : ℤ) - den.log2) * 30103 / 100000 - 1) ≤
          2 ^ ((num.log2 : ℤ) - (den.log2 + 1 : ℕ)) := by
            refine ten_zpow_le_two_zpow ?_ ?_
            · omega
            · omega
      _ = 2 ^ num.log2 / 2 ^ (den.log2 + 1) := by
            rw [zpow_sub₀ two_ne_zero, zpow_natCast, zpow_natCast]
      _ ≤ num / den := div_le_div₀ (by positivity) hnum' (by exact_mod_cast hden) hden'
  · -- the other two guesses were compared with the number
    split
    · next h _ => exact hnot h
    · next h => exact hnot h

/-! ### What is rounded to a number -/

namespace Span

variable {s : Span} {y : ℚ}

/-- The interval has some width to both sides. -/
structure Proper (s : Span) : Prop where
  den_pos : 0 < s.den
  below_pos : 0 < s.below
  above_pos : 0 < s.above

/-- Whether a number is in the interval. -/
structure Holds (s : Span) (y : ℚ) : Prop where
  lower : (s.num - s.below : ℚ) / s.den ≤ y
  upper : y ≤ (s.num + s.above : ℚ) / s.den
  inner : s.closed = false → (s.num - s.below : ℚ) / s.den < y ∧ y < (s.num + s.above : ℚ) / s.den

theorem quarter_div (e : ℤ) :
    ((2 ^ (e - 2).toNat : ℕ) : ℚ) / (2 ^ (2 - e).toNat : ℕ) = 2 ^ e / 4 := by
  have hfour : (2 : ℚ) ^ (2 : ℤ) = 4 := by norm_num
  rw [Nat.cast_pow, Nat.cast_pow, Nat.cast_ofNat, ← zpow_natCast, ← zpow_natCast,
    ← zpow_sub₀ two_ne_zero, ← hfour, ← zpow_sub₀ two_ne_zero]
  congr 1
  omega

/-- How much of a unit below a number is rounded to it. -/
def reach (m : ℕ) (e : ℤ) : ℚ := if m = 2 ^ 52 ∧ -1074 < e then 1 / 4 else 1 / 2

theorem reach_bounds (m : ℕ) (e : ℤ) : 0 < reach m e ∧ reach m e ≤ 1 / 2 := by
  unfold reach
  split <;> norm_num

/-- The ends of the interval of a number. -/
theorem ofDyadic_ends (m : ℕ) (e : ℤ) :
    (ofDyadic m e).Proper ∧
    ((ofDyadic m e).num - (ofDyadic m e).below : ℚ) / (ofDyadic m e).den = (m - reach m e) * 2 ^ e ∧
      ((ofDyadic m e).num + (ofDyadic m e).above : ℚ) / (ofDyadic m e).den = (m + 1 / 2) * 2 ^ e := by
  have hquarter := quarter_div e
  have hden : 0 < 2 ^ (2 - e).toNat := Nat.two_pow_pos _
  have hunit : 0 < 2 ^ (e - 2).toNat := Nat.two_pow_pos _
  -- ends are counted in quarters of a unit, to be whole even below a power of two
  have hbelow : ((ofDyadic m e).below : ℚ) = 4 * reach m e * (2 ^ (e - 2).toNat : ℕ) := by
    show ((if m = 2 ^ 52 ∧ -1074 < e then 2 ^ (e - 2).toNat else 2 * 2 ^ (e - 2).toNat : ℕ) : ℚ) = _
    unfold reach
    by_cases hcut : m = 2 ^ 52 ∧ -1074 < e
    · rw [if_pos hcut, if_pos hcut]
      ring
    · rw [if_neg hcut, if_neg hcut]
      push_cast
      ring
  have hfraction (c : ℚ) : c * (2 ^ (e - 2).toNat : ℕ) / (2 ^ (2 - e).toNat : ℕ) = c / 4 * 2 ^ e := by
    rw [mul_div_assoc, hquarter]
    ring
  refine ⟨⟨hden, ?_, Nat.mul_pos (by decide) hunit⟩, ?_, ?_⟩
  · show 0 < if m = 2 ^ 52 ∧ -1074 < e then 2 ^ (e - 2).toNat else 2 * 2 ^ (e - 2).toNat
    split
    · exact hunit
    · exact Nat.mul_pos (by decide) hunit
  · rw [hbelow]
    show (((4 * m * 2 ^ (e - 2).toNat : ℕ) : ℚ) - _) / (2 ^ (2 - e).toNat : ℕ) = _
    rw [Nat.cast_mul, ← sub_mul, hfraction]
    push_cast
    ring
  · show (((4 * m * 2 ^ (e - 2).toNat : ℕ) : ℚ) + (2 * 2 ^ (e - 2).toNat : ℕ)) /
      (2 ^ (2 - e).toNat : ℕ) = _
    rw [Nat.cast_mul, Nat.cast_mul 2, ← add_mul, hfraction]
    push_cast
    ring

/-- A number just below a power of two is rounded to it. The units are half as large there, so the
nearest multiple has all bits and one more. -/
theorem rankOf_of_lt_two_pow {e : ℤ} (he : -1074 < e) (hlower : 2 ^ 52 - 1 / 4 ≤ y / 2 ^ e)
    (hlt : y / 2 ^ e < 2 ^ 52) : RankOf y (rank (2 ^ 52) e) := by
  have hunit : (0 : ℚ) < 2 ^ e := by positivity
  have hpow (k : ℕ) : (2 : ℚ) ^ (e + k) = 2 ^ k * 2 ^ e := by
    rw [zpow_add₀ two_ne_zero, zpow_natCast, mul_comm]
  have hdouble : y / 2 ^ (e - 1) = 2 * (y / 2 ^ e) := by
    rw [zpow_sub_one₀ two_ne_zero]
    field_simp
  -- the unit that is kept is half as large, and in it the number has all 53 bits
  have hkept : Kept y (e - 1) := by
    refine ⟨by omega, ?_, .inr ?_⟩
    · rw [show e - 1 + 53 = e + (52 : ℕ) by omega, hpow]
      exact (div_lt_iff₀ hunit).mp hlt
    · rw [show e - 1 + 52 = e + (51 : ℕ) by omega, hpow]
      exact (le_div_iff₀ hunit).mp (by linarith)
  have hnearest : NearestEven (y / 2 ^ (e - 1)) (2 ^ 53) := by
    rw [hdouble]
    exact ⟨by push_cast; linarith, by push_cast; linarith, fun _ => by decide⟩
  refine ⟨e - 1, 2 ^ 53, hkept, hnearest, ?_⟩
  unfold rank
  omega

/-- A number is rounded to what is nearest among the multiples of one unit. -/
theorem rankOf_of_nearest {m : ℕ} {e : ℤ} (hc : Canonical m e) (h : NearestEven (y / 2 ^ e) m)
    (hfull : e = -1074 ∨ (2 : ℚ) ^ 52 ≤ y / 2 ^ e) : RankOf y (rank m e) := by
  have hunit : (0 : ℚ) < 2 ^ e := by positivity
  have hm : (m : ℚ) + 1 ≤ 2 ^ 53 := by exact_mod_cast hc.lt
  have hupper := h.upper
  have hpow (k : ℕ) : (2 : ℚ) ^ (e + k) = 2 ^ k * 2 ^ e := by
    rw [zpow_add₀ two_ne_zero, zpow_natCast, mul_comm]
  refine ⟨e, m, ⟨hc.ge, ?_, hfull.imp_right fun hfull => ?_⟩, h, rfl⟩
  · rw [show e + 53 = e + (53 : ℕ) from rfl, hpow]
    exact (div_lt_iff₀ hunit).mp (by linarith)
  · rw [show e + 52 = e + (52 : ℕ) from rfl, hpow]
    exact (le_div_iff₀ hunit).mp hfull

/-- The interval of a number, counted in its units. -/
theorem Holds.bounds {m : ℕ} {e : ℤ} (h : (ofDyadic m e).Holds y) :
    m - reach m e ≤ y / 2 ^ e ∧ y / 2 ^ e ≤ m + 1 / 2 ∧
      (m % 2 ≠ 0 → m - reach m e < y / 2 ^ e ∧ y / 2 ^ e < m + 1 / 2) := by
  obtain ⟨-, hends, hends'⟩ := ofDyadic_ends m e
  have hunit : (0 : ℚ) < 2 ^ e := by positivity
  refine ⟨(le_div_iff₀ hunit).mpr (hends ▸ h.lower), (div_le_iff₀ hunit).mpr (hends' ▸ h.upper),
    fun hodd => ?_⟩
  have hopen : (ofDyadic m e).closed = false := beq_false_of_ne hodd
  obtain ⟨hlow, hup⟩ := h.inner hopen
  exact ⟨(lt_div_iff₀ hunit).mpr (hends ▸ hlow), (div_lt_iff₀ hunit).mpr (hends' ▸ hup)⟩

/-- **What is in the interval of a number is rounded to it.** -/
theorem rankOf_of_holds {m : ℕ} {e : ℤ} (hc : Canonical m e) (h : (ofDyadic m e).Holds y) :
    RankOf y (rank m e) := by
  obtain ⟨hlower, hupper, hinner⟩ := h.bounds
  obtain ⟨-, hreach⟩ := reach_bounds m e
  -- below a power of two the units change, and everywhere else they are those of the number
  by_cases hcarry : (m = 2 ^ 52 ∧ -1074 < e) ∧ y / 2 ^ e < m
  · obtain ⟨⟨rfl, he⟩, hlt⟩ := hcarry
    rw [show reach (2 ^ 52) e = 1 / 4 from if_pos ⟨rfl, he⟩] at hlower
    push_cast at hlower hlt
    exact rankOf_of_lt_two_pow he hlower hlt
  · have hfull : e = -1074 ∨ (2 : ℚ) ^ 52 ≤ y / 2 ^ e := by
      refine or_iff_not_imp_left.mpr fun he => ?_
      rcases Nat.lt_or_eq_of_le (hc.full.resolve_right he) with hlt | heq
      · have hsucc : (2 ^ 52 : ℚ) + 1 ≤ m := by exact_mod_cast hlt
        linarith
      · have hge := not_lt.mp (not_and.mp hcarry ⟨heq.symm, lt_of_le_of_ne hc.ge (Ne.symm he)⟩)
        rw [← heq] at hge
        exact_mod_cast hge
    have hnear : (m : ℚ) - 1 / 2 ≤ y / 2 ^ e := by linarith
    -- half a unit away is in the interval only if the mantissa is even
    have heven (htie : y / 2 ^ e = m - 1 / 2 ∨ y / 2 ^ e = m + 1 / 2) : m % 2 = 0 := by
      by_contra hodd
      obtain ⟨hlow, hup⟩ := hinner hodd
      rcases htie with htie | htie <;> linarith
    exact rankOf_of_nearest hc ⟨hnear, hupper, heven⟩ hfull

/-! ### Multiples of a power of ten -/

/-- Whether a number that misses the one of the interval by so much is in it, where the interval
reaches so far. -/
def reaches (s : Span) (room miss : ℕ) : Bool := if s.closed then miss ≤ room else miss < room

theorem reaches_iff {room miss : ℕ} :
    s.reaches room miss = true ↔ miss ≤ room ∧ (s.closed = false → miss < room) := by
  unfold reaches
  cases s.closed with
  | true => simp
  | false =>
    rw [if_neg Bool.false_ne_true, decide_eq_true_iff]
    exact ⟨fun h => ⟨h.le, fun _ => h⟩, fun h => h.2 rfl⟩

section Grid

variable (hs : s.Proper) {up down : ℕ} (hup : 0 < up) (hdown : 0 < down)
include hs hup hdown

/-- The multiple of a unit that is next below a number, and the next one above, by how far they
are from it. -/
theorem neighbours :
    ((s.num * up / (s.den * down) : ℕ) : ℚ) * (down / up) =
        s.num / s.den - (s.num * up % (s.den * down) : ℕ) / (s.den * up) ∧
      ((s.num * up / (s.den * down) + 1 : ℕ) : ℚ) * (down / up) =
        s.num / s.den + (s.den * down - s.num * up % (s.den * down) : ℕ) / (s.den * up) := by
  have hden : (0 : ℚ) < s.den := by exact_mod_cast hs.den_pos
  have hup' : (0 : ℚ) < up := by exact_mod_cast hup
  have hmod : s.num * up % (s.den * down) < s.den * down :=
    Nat.mod_lt _ (Nat.mul_pos hs.den_pos hdown)
  have hsplit : (s.num * up : ℚ) = s.den * down * (s.num * up / (s.den * down) : ℕ) +
      (s.num * up % (s.den * down) : ℕ) := by
    exact_mod_cast (Nat.div_add_mod (s.num * up) (s.den * down)).symm
  rw [Nat.cast_sub hmod.le]
  generalize s.num * up / (s.den * down) = d at hsplit
  generalize ((s.num * up % (s.den * down) : ℕ) : ℚ) = r at hsplit
  have hnum : (s.num : ℚ) / s.den = d * (down / up) + r / (s.den * up) := by
    field_simp
    linarith
  have hwhole : ((s.den * down : ℕ) : ℚ) / (s.den * up) = down / up := by
    push_cast
    field_simp
  constructor
  · rw [hnum]
    ring
  · rw [hnum, sub_div, hwhole]
    push_cast
    ring

end Grid

theorem miss_of_reaches (hden : 0 < s.den) {up room miss : ℕ} (hup : 0 < up)
    (h : s.reaches (room * up) miss = true) :
    (miss : ℚ) / (s.den * up) ≤ room / s.den ∧
      (s.closed = false → (miss : ℚ) / (s.den * up) < room / s.den) := by
  have hden' : (0 : ℚ) < s.den := by exact_mod_cast hden
  have hup' : (0 : ℚ) < up := by exact_mod_cast hup
  have hroom : (room : ℚ) / s.den = (room * up : ℕ) / (s.den * up) := by
    push_cast
    field_simp
  obtain ⟨hle, hlt⟩ := reaches_iff.mp h
  rw [hroom]
  refine ⟨div_le_div_of_nonneg_right (by exact_mod_cast hle) (by positivity), fun hopen => ?_⟩
  exact div_lt_div_of_pos_right (by exact_mod_cast hlt hopen) (by positivity)

theorem Proper.room_pos (hs : s.Proper) :
    (0 : ℚ) < s.below / s.den ∧ (0 : ℚ) < s.above / s.den := by
  have hden : (0 : ℚ) < s.den := by exact_mod_cast hs.den_pos
  exact ⟨div_pos (by exact_mod_cast hs.below_pos) hden,
    div_pos (by exact_mod_cast hs.above_pos) hden⟩

/-- A number is in the interval if the interval reaches as far down as it is missed by. -/
theorem holds_sub (hs : s.Proper) {up miss : ℕ} (hup : 0 < up)
    (h : s.reaches (s.below * up) miss = true) : s.Holds (s.num / s.den - miss / (s.den * up)) := by
  obtain ⟨-, habove⟩ := hs.room_pos
  obtain ⟨hle, hlt⟩ := miss_of_reaches hs.den_pos hup h
  have hmiss : (0 : ℚ) ≤ miss / (s.den * up) := by positivity
  refine ⟨by rw [sub_div]; linarith, by rw [add_div]; linarith, fun hopen => ?_⟩
  have hlt := hlt hopen
  exact ⟨by rw [sub_div]; linarith, by rw [add_div]; linarith⟩

/-- And if it reaches as far up. -/
theorem holds_add (hs : s.Proper) {up miss : ℕ} (hup : 0 < up)
    (h : s.reaches (s.above * up) miss = true) : s.Holds (s.num / s.den + miss / (s.den * up)) := by
  obtain ⟨hbelow, -⟩ := hs.room_pos
  obtain ⟨hle, hlt⟩ := miss_of_reaches hs.den_pos hup h
  have hmiss : (0 : ℚ) ≤ miss / (s.den * up) := by positivity
  refine ⟨by rw [sub_div]; linarith, by rw [add_div]; linarith, fun hopen => ?_⟩
  have hlt := hlt hopen
  exact ⟨by rw [sub_div]; linarith, by rw [add_div]; linarith⟩

/-- What is chosen among the multiples of a unit. -/
theorem within?_eq (s : Span) (top : ℤ) (count : ℕ) : s.within? top count =
    let unit := top + 1 - count
    let up := (unitFactors unit).1
    let b := s.den * (unitFactors unit).2
    let d := s.num * up / b
    let miss := s.num * up % b
    let lower := s.reaches (s.below * up) miss
    let upper := s.reaches (s.above * up) (b - miss)
    if lower && upper then
      some ⟨Nat.toDigits 10 (if miss < b - miss then d else d + 1), unit⟩
    else if lower then some ⟨Nat.toDigits 10 d, unit⟩
    else if upper then some ⟨Nat.toDigits 10 (d + 1), unit⟩
    else none := rfl

/-- **What is chosen is in the interval.** -/
theorem exists_of_within? (hs : s.Proper) {top : ℤ} {count : ℕ} {n : Numeral}
    (h : s.within? top count = some n) :
    ∃ d : ℕ, n = ⟨Nat.toDigits 10 d, top + 1 - count⟩ ∧ s.Holds (d * 10 ^ (top + 1 - count)) := by
  rw [within?_eq] at h
  dsimp only at h
  obtain ⟨hup, hdown, hpow⟩ := unitFactors_eq (top + 1 - count)
  generalize (unitFactors (top + 1 - count)).1 = up at h hup hpow
  generalize (unitFactors (top + 1 - count)).2 = down at h hdown hpow
  obtain ⟨hfloor, hceil⟩ := neighbours hs hup hdown
  rw [← hpow] at hfloor hceil
  generalize s.num * up % (s.den * down) = miss at h hfloor hceil
  generalize s.num * up / (s.den * down) = d at h hfloor hceil
  -- the two numbers that may be chosen, each if the interval reaches it
  have hlower (h : s.reaches (s.below * up) miss = true) :
      s.Holds (d * 10 ^ (top + 1 - count)) := by
    rw [hfloor]
    exact holds_sub hs hup h
  have hupper (h : s.reaches (s.above * up) (s.den * down - miss) = true) :
      s.Holds ((d + 1 : ℕ) * 10 ^ (top + 1 - count)) := by
    rw [hceil]
    exact holds_add hs hup h
  split at h
  · next hboth =>
    obtain ⟨hlow, hup⟩ := (Bool.and_eq_true _ _).mp hboth
    refine ⟨_, (Option.some.inj h).symm, ?_⟩
    split
    · exact hlower hlow
    · exact hupper hup
  · split at h
    · next hlow => exact ⟨d, (Option.some.inj h).symm, hlower hlow⟩
    · split at h
      · next hup => exact ⟨d + 1, (Option.some.inj h).symm, hupper hup⟩
      · cases h

theorem room_le_of_not_reaches {room miss : ℕ} (h : s.reaches room miss = false) : room ≤ miss := by
  by_contra hlt
  have hreaches : s.reaches room miss = true := reaches_iff.mpr ⟨by omega, fun _ => by omega⟩
  rw [hreaches] at h
  cases h

/-- If neither neighbour is in the interval, it is no wider than the multiples are apart. -/
theorem width_le_of_not_reaches (hs : s.Proper) {up down miss : ℕ} (hup : 0 < up)
    (hmiss : miss ≤ s.den * down) (hlower : s.reaches (s.below * up) miss = false)
    (hupper : s.reaches (s.above * up) (s.den * down - miss) = false) :
    (s.below + s.above : ℚ) / s.den ≤ down / up := by
  have hnarrow : (s.below + s.above) * up ≤ s.den * down := by
    have hlow := room_le_of_not_reaches hlower
    have hhigh := room_le_of_not_reaches hupper
    rw [Nat.add_mul]
    omega
  have hden : (0 : ℚ) < s.den := by exact_mod_cast hs.den_pos
  have hup' : (0 : ℚ) < up := by exact_mod_cast hup
  rw [div_le_div_iff₀ hden hup', mul_comm (down : ℚ)]
  exact_mod_cast hnarrow

/-- Multiples of seventeen digits are closer to each other than the interval is wide. -/
theorem ten_zpow_lt_width (hs : s.Proper) (hwide : s.num ≤ 2 ^ 53 * (s.below + s.above)) {top : ℤ}
    (htop : (10 : ℚ) ^ top ≤ s.num / s.den) :
    (10 : ℚ) ^ (top + 1 - (17 : ℕ)) < (s.below + s.above) / s.den := by
  have hden : (0 : ℚ) < s.den := by exact_mod_cast hs.den_pos
  obtain ⟨hbelow, habove⟩ := hs.room_pos
  have hwidth : (0 : ℚ) < (s.below + s.above) / s.den := by
    rw [add_div]
    linarith
  -- one part in `2 ^ 53` of the number is more than one part in `10 ^ 16`
  have hnum : (s.num : ℚ) / s.den ≤ 2 ^ 53 * ((s.below + s.above) / s.den) := by
    rw [← mul_div_assoc]
    exact div_le_div_of_nonneg_right (by exact_mod_cast hwide) hden.le
  calc (10 : ℚ) ^ (top + 1 - (17 : ℕ)) = 10 ^ top / 10 ^ 16 := by
        rw [show top + 1 - (17 : ℕ) = top - (16 : ℕ) by omega, zpow_sub₀ (by norm_num),
          zpow_natCast]
    _ ≤ 2 ^ 53 * ((s.below + s.above) / s.den) / 10 ^ 16 :=
        div_le_div_of_nonneg_right (htop.trans hnum) (by positivity)
    _ < (s.below + s.above) / s.den := by
        rw [div_lt_iff₀ (by norm_num), mul_comm]
        exact mul_lt_mul_of_pos_left (by norm_num) hwidth

/-- **Seventeen digits are always enough.** -/
theorem exists_within? (hs : s.Proper) (hwide : s.num ≤ 2 ^ 53 * (s.below + s.above)) {top : ℤ}
    (htop : (10 : ℚ) ^ top ≤ s.num / s.den) : ∃ n, s.within? top 17 = some n := by
  have hclose := ten_zpow_lt_width hs hwide htop
  obtain ⟨hup, hdown, hpow⟩ := unitFactors_eq (top + 1 - (17 : ℕ))
  rw [hpow] at hclose
  rw [within?_eq]
  dsimp only
  generalize (unitFactors (top + 1 - (17 : ℕ))).1 = up at hup hclose ⊢
  generalize (unitFactors (top + 1 - (17 : ℕ))).2 = down at hdown hclose ⊢
  have hmod : s.num * up % (s.den * down) < s.den * down :=
    Nat.mod_lt _ (Nat.mul_pos hs.den_pos hdown)
  generalize s.num * up % (s.den * down) = miss at hmod ⊢
  cases hlower : s.reaches (s.below * up) miss with
  | true => cases s.reaches (s.above * up) (s.den * down - miss) <;> exact ⟨_, rfl⟩
  | false =>
    cases hupper : s.reaches (s.above * up) (s.den * down - miss) with
    | true => exact ⟨_, rfl⟩
    | false => exact absurd hclose (width_le_of_not_reaches hs hup hmod.le hlower hupper).not_gt

/-! What the interval of a double has of this. -/

section OfDyadic

variable {m : ℕ} {e : ℤ} (hc : Canonical m e)
include hc

theorem num_ofDyadic_pos : 0 < (ofDyadic m e).num :=
  Nat.mul_pos (Nat.mul_pos (by decide) hc.pos) (Nat.two_pow_pos _)

theorem log2_num_ofDyadic : (ofDyadic m e).num.log2 = m.log2 + 2 + (e - 2).toNat := by
  have hpos := hc.pos
  show (4 * m * 2 ^ (e - 2).toNat).log2 = _
  rw [Double.log2_mul_two_pow (by omega), Nat.mul_comm, show 4 = 2 ^ 2 from rfl,
    Double.log2_mul_two_pow hpos.ne']

/-- It is as wide as one part in `2 ^ 53` of the number. -/
theorem num_ofDyadic_le :
    (ofDyadic m e).num ≤ 2 ^ 53 * ((ofDyadic m e).below + (ofDyadic m e).above) := by
  have hlt := hc.lt
  show 4 * m * 2 ^ (e - 2).toNat ≤ 2 ^ 53 * ((if m = 2 ^ 52 ∧ -1074 < e then 2 ^ (e - 2).toNat
    else 2 * 2 ^ (e - 2).toNat) + 2 * 2 ^ (e - 2).toNat)
  generalize 2 ^ (e - 2).toNat = quarter
  split
  · -- the narrow interval belongs to the least mantissa, which makes up for it
    next hcut =>
    calc 4 * m * quarter ≤ 2 ^ 53 * 3 * quarter := Nat.mul_le_mul_right _ (by omega)
      _ = 2 ^ 53 * (quarter + 2 * quarter) := by ring
  · calc 4 * m * quarter ≤ 2 ^ 53 * 4 * quarter := Nat.mul_le_mul_right _ (by omega)
      _ = 2 ^ 53 * (2 * quarter + 2 * quarter) := by ring

/-- Numbers in it are above zero. -/
theorem Holds.pos (h : (ofDyadic m e).Holds y) : 0 < y := by
  obtain ⟨-, hlower, -⟩ := ofDyadic_ends m e
  have hm : (1 : ℚ) ≤ m := by exact_mod_cast hc.pos
  obtain ⟨-, hreach⟩ := reach_bounds m e
  calc 0 < (m - reach m e) * 2 ^ e := mul_pos (by linarith) (by positivity)
    _ ≤ y := hlower ▸ h.lower

end OfDyadic

end Span

/-! ### The digits -/

namespace Numeral

/-- The number that a numeral stands for. -/
def value (n : Numeral) : ℚ := ofDigits n.digits * 10 ^ n.exponent

theorem ne_nil_of_value_pos {n : Numeral} (h : 0 < n.value) : n.digits ≠ [] := by
  intro hnil
  rw [value, hnil] at h
  exact absurd h (by simp [ofDigits])

/-- What is cut off at the end is zeros, and the exponent tells how many. -/
theorem exists_trimmed (n : Numeral) : ∃ zeros : ℕ,
    n.digits = n.trimmed.digits ++ List.replicate zeros '0' ∧
      n.trimmed.exponent = n.exponent + zeros := by
  -- the zeros are counted from the end
  let tail := n.digits.reverse.takeWhile (· == '0')
  have htail (c : Char) (hc : c ∈ n.digits.reverse.takeWhile (· == '0')) : c = '0' := by
    have hzero := List.mem_takeWhile_imp hc
    exact eq_of_beq hzero
  have hzeros : tail.reverse = List.replicate tail.length '0' :=
    List.eq_replicate_iff.mpr ⟨List.length_reverse, fun c hc => htail c (List.mem_reverse.mp hc)⟩
  have hsplit : n.digits =
      (n.digits.reverse.dropWhile (· == '0')).reverse ++ List.replicate tail.length '0' := by
    rw [← hzeros, ← List.reverse_append, List.takeWhile_append_dropWhile, List.reverse_reverse]
  have htake : n.trimmed.digits = (n.digits.reverse.dropWhile (· == '0')).reverse := by
    show n.digits.take (n.digits.length - tail.length) = _
    generalize (n.digits.reverse.dropWhile (· == '0')).reverse = front at hsplit
    generalize tail.length = zeros at hsplit
    rw [hsplit]
    simp
  exact ⟨tail.length, htake ▸ hsplit, rfl⟩

theorem allDigits_trimmed {n : Numeral} (h : allDigits n.digits = true) :
    allDigits n.trimmed.digits = true := by
  obtain ⟨zeros, hsplit, -⟩ := n.exists_trimmed
  rw [hsplit, allDigits, List.all_append, Bool.and_eq_true] at h
  exact h.1

/-- **Zeros at the end are cut off without a loss.** -/
theorem value_trimmed (n : Numeral) : n.trimmed.value = n.value := by
  obtain ⟨zeros, hdigits, hexponent⟩ := n.exists_trimmed
  have hnat : ofDigits n.digits = 10 ^ zeros * ofDigits n.trimmed.digits := by
    rw [hdigits]
    show Nat.ofDigitChars 10 (n.trimmed.digits ++ List.replicate zeros '0') 0 = _
    rw [Nat.ofDigitChars_append, Nat.ofDigitChars_replicate_zero]
    rfl
  rw [value, value, hnat, hexponent, zpow_add₀ (by norm_num), zpow_natCast]
  push_cast
  ring

end Numeral

/-- **What is chosen for a double** is a number in its interval, without the zeros at its end. -/
theorem exists_shortest {m : ℕ} {e : ℤ} (hc : Canonical m e) (he : e ≤ 971) :
    ∃ (d : ℕ) (unit : ℤ),
      (Span.ofDyadic m e).shortest = Numeral.trimmed ⟨Nat.toDigits 10 d, unit⟩ ∧
        (Span.ofDyadic m e).Holds (d * 10 ^ unit) := by
  obtain ⟨hs, -, -⟩ := Span.ofDyadic_ends m e
  have hnum := Span.num_ofDyadic_pos hc
  have htop : (10 : ℚ) ^ magnitude (Span.ofDyadic m e).num (Span.ofDyadic m e).den ≤
      (Span.ofDyadic m e).num / (Span.ofDyadic m e).den := by
    have hbits : m.log2 < 53 := (Nat.log2_lt hc.pos.ne').mpr hc.lt
    have hge := hc.ge
    have hlog := Span.log2_num_ofDyadic hc
    have hlog' : (Span.ofDyadic m e).den.log2 = (2 - e).toNat := Nat.log2_two_pow
    exact magnitude_le hnum hs.den_pos (by omega) (by omega)
  -- among the numbers of seventeen digits at the latest one is found
  obtain ⟨last, hlast⟩ := Span.exists_within? hs (Span.num_ofDyadic_le hc) htop
  have hsome : ((List.range 17).findSome? fun i => (Span.ofDyadic m e).within?
      (magnitude (Span.ofDyadic m e).num (Span.ofDyadic m e).den) (i + 1)) ≠ none := by
    intro hnone
    have hlate := List.findSome?_eq_none_iff.mp hnone 16 (by decide)
    rw [hlast] at hlate
    cases hlate
  obtain ⟨found, hfound⟩ := Option.ne_none_iff_exists'.mp hsome
  obtain ⟨i, -, hi⟩ := List.exists_of_findSome?_eq_some hfound
  obtain ⟨d, rfl, hholds⟩ := Span.exists_of_within? hs hi
  refine ⟨d, _, ?_, hholds⟩
  show Numeral.trimmed (Option.getD _ _) = _
  rw [hfound]
  rfl

/-- **The shortest digits of a double** stand for a number that is rounded to it. -/
theorem rankOf_shortest {m : ℕ} {e : ℤ} (hc : Canonical m e) (he : e ≤ 971) :
    let n := (Span.ofDyadic m e).shortest
    RankOf n.value (rank m e) ∧ allDigits n.digits = true ∧ n.digits ≠ [] := by
  intro n
  obtain ⟨d, unit, hn, hholds⟩ := exists_shortest hc he
  have hvalue : n.value = d * 10 ^ unit := by
    rw [show n = _ from hn, Numeral.value_trimmed]
    exact congrArg (fun k : ℕ => (k : ℚ) * 10 ^ unit) Nat.ofDigitChars_ten_toDigits
  have hdigits : allDigits n.digits = true := by
    rw [show n = _ from hn]
    refine Numeral.allDigits_trimmed (List.all_eq_true.mpr fun c hc => ?_)
    exact Nat.isDigit_of_mem_toDigits (by decide) (by decide) hc
  rw [← hvalue] at hholds
  exact ⟨Span.rankOf_of_holds hc hholds, hdigits, Numeral.ne_nil_of_value_pos (hholds.pos hc)⟩

end CurvePlot.Decimal
