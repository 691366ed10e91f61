import CurvePlot.Double.Whole
import CurvePlot.Proofs.Double.Scientific
import Mathlib.Algebra.Order.Floor.Semifield
import Mathlib.Data.Nat.Bitwise
import Mathlib.Data.Rat.Floor
/-!
# Rounding doubles to whole numbers

Whole numbers that a double is rounded to are doubles, so nothing is lost on the way. `truncate`
clears the bits behind the binary point, and what it leaves is the whole part of the magnitude with
the sign in front of it (`toRat_truncate`). `ceil` adds one where something was cleared. There the
number is less than `2 ^ 52`, so that the sum is exact (`toRat_ceil`). And `toNat` is the whole
part, as long as that is a word of 64 bits (`toNat_eq_min`).
-/

namespace CurvePlot.Double

open Float.Model (Format UnpackedFloat)
open Float.Model.UnpackedFloat (Sign)

variable {v : Float}

/-- The whole part of a dyadic number is found by shifts. -/
theorem floor_mul_two_pow (m : ℕ) (e : ℤ) :
    ⌊(m * 2 ^ e : ℚ)⌋₊ = m * 2 ^ e.toNat / 2 ^ (-e).toNat := by
  -- one of the two shifts is by nothing
  have hsplit : e = (e.toNat : ℤ) - ((-e).toNat : ℤ) := by omega
  have hquotient : (m * 2 ^ e : ℚ) = (m * 2 ^ e.toNat : ℕ) / (2 ^ (-e).toNat : ℕ) := by
    push_cast
    rw [← zpow_natCast, ← zpow_natCast, mul_div_assoc, ← zpow_sub₀ two_ne_zero, ← hsplit]
  rw [hquotient, Nat.floor_div_eq_div]

/-! ### Clearing bits -/

/-- The magnitude of a double is what its dyadic form says. -/
theorem abs_toRat (hv : v.isFinite = true) :
    |toRat v| = (decode v).mantissa * 2 ^ (decode v).exponent := by
  have hunit (s : Sign) : |((unit s : ℤ) : ℚ)| = 1 := by cases s <;> norm_num [unit]
  rw [← toRat_decode hv, Dyadic.toRat, abs_mul, hunit, one_mul]
  exact abs_of_nonneg (by positivity)

/-- The magnitude is bounded by the exponent. -/
theorem abs_toRat_lt (hv : v.isFinite = true) {e : ℤ} (he : (decode v).exponent ≤ e) :
    |toRat v| < 2 ^ (53 + e) := by
  have hpart : mantissaField v < 2 ^ 52 := Nat.mod_lt _ (by decide)
  have hmantissa : (decode v).mantissa < 2 ^ 53 := by
    rw [decode_eq]
    split <;> dsimp only <;> omega
  have hm : ((decode v).mantissa : ℚ) < 2 ^ 53 := by exact_mod_cast hmantissa
  have hscale : (2 : ℚ) ^ (decode v).exponent ≤ 2 ^ e := zpow_le_zpow_right₀ one_le_two he
  rw [abs_toRat hv]
  calc ((decode v).mantissa * 2 ^ (decode v).exponent : ℚ)
      ≤ (decode v).mantissa * 2 ^ e := mul_le_mul_of_nonneg_left hscale (Nat.cast_nonneg _)
    _ < 2 ^ 53 * 2 ^ e := mul_lt_mul_of_pos_right hm (by positivity)
    _ = 2 ^ (53 + e) := by
        rw [zpow_add₀ two_ne_zero]
        rfl

/-- Bits that tell the place of a finite double stand for it. -/
theorem toRat_ofBits {bits : UInt64} {u : UnpackedFloat} (hu : Packed u) (hfin : u.isFinite = true)
    (hplace : place u = unit (signOf (decide (2 ^ 63 ≤ bits.toNat))) * (bits.toNat % 2 ^ 63 : ℕ)) :
    (Float.ofBits bits).isFinite = true ∧ toRat (Float.ofBits bits) = value u := by
  -- the place of `u` is within bounds, so the bits are those of no infinity
  obtain ⟨hlower, hupper⟩ := hu.place_bounds hfin
  change -1 * (beyond : ℤ) < _ at hlower
  change _ < 1 * (beyond : ℤ) at hupper
  have hbound : bits.toBitVec.toNat % 2 ^ 63 ≤ beyond := by
    change bits.toNat % 2 ^ 63 ≤ beyond
    rw [hplace] at hlower hupper
    generalize bits.toNat % 2 ^ 63 = n at hlower hupper ⊢
    generalize decide (2 ^ 63 ≤ bits.toNat) = negative at hlower hupper
    cases negative
    · change (1 : ℤ) * n < _ at hupper
      omega
    · change _ < (-1 : ℤ) * n at hlower
      omega
  obtain ⟨hnumber, hsame⟩ := place_unpack hbound
  have hunpack : (Float.ofBits bits).toModel.unpack =
      UnpackedFloat.unpack Format.binary64 bits.toBitVec :=
    (packed_unpack bits.toBitVec).unpack_pack hnumber
  rw [← hunpack] at hnumber hsame
  have heq : place (Float.ofBits bits).toModel.unpack = place u := hsame.trans hplace.symm
  have hfinite := isFinite_of_place hnumber (by omega) (by omega)
  exact ⟨hfinite, value_eq_of_place (packed _) hu hfinite hfin heq⟩

/-- Clearing the lowest bits of a word leaves the multiple of a power of two that is next below. -/
theorem toNat_clear (bits : UInt64) {a : UInt64} {k : ℕ} (ha : a.toNat = k) (hk : k < 64) :
    ((bits >>> a) <<< a).toNat = bits.toNat / 2 ^ k * 2 ^ k := by
  -- shifting right and back left loses nothing at the upper end
  have hlt : bits.toNat < 2 ^ 64 := bits.toNat_lt
  have hle : bits.toNat / 2 ^ k * 2 ^ k ≤ bits.toNat := Nat.div_mul_le_self _ _
  rw [UInt64.toNat_shiftLeft, UInt64.toNat_shiftRight, ha, Nat.mod_eq_of_lt hk, Nat.shiftLeft_eq,
    Nat.shiftRight_eq_div_pow]
  exact Nat.mod_eq_of_lt (hle.trans_lt hlt)

/-- Bits are cleared in the lower part of a sum, if the upper one has none of them. -/
theorem clear_add (c y : ℕ) {k n : ℕ} (hk : k ≤ n) :
    (c * 2 ^ n + y) / 2 ^ k * 2 ^ k = c * 2 ^ n + y / 2 ^ k * 2 ^ k := by
  obtain ⟨d, rfl⟩ := Nat.exists_eq_add_of_le' hk
  rw [Nat.pow_add, ← Nat.mul_assoc, Nat.add_comm, Nat.add_mul_div_right _ _ (Nat.two_pow_pos k),
    Nat.add_mul, Nat.add_comm]

/-- How many bits stand behind the binary point. -/
def fractionBits (v : Float) : UInt64 := (1075 : UInt64) - ((v.toBits >>> 52) &&& 0x7FF)

/-- What is truncated is told by the exponent. -/
theorem truncate_eq (v : Float) : truncate v =
    if exponentField v < 1023 then Float.ofBits (v.toBits &&& 0x8000000000000000)
    else if exponentField v < 1075 then
      Float.ofBits ((v.toBits >>> fractionBits v) <<< fractionBits v)
    else v := by
  have hless {a : UInt64} (k : ℕ) (ha : a.toNat = k) :
      ((v.toBits >>> 52) &&& 0x7FF) < a ↔ exponentField v < k := by
    rw [UInt64.lt_iff_toNat_lt, toNat_field, ha]
  unfold truncate
  dsimp only
  rw [if_congr (hless 1023 rfl) rfl rfl, if_congr (hless 1075 rfl) rfl rfl]
  rfl

section Truncate

variable (hv : v.isFinite = true)
include hv

/-- What is less than one has no whole part. -/
theorem toRat_truncate_of_lt (h : exponentField v < 1023) :
    (truncate v).isFinite = true ∧ toRat (truncate v) = 0 ∧ ⌊|toRat v|⌋₊ = 0 := by
  -- the sign bit is all that is left, and it stands for zero
  have hsign : (v.toBits &&& 0x8000000000000000).toNat =
      (v.toBits.toNat.testBit 63).toNat * 2 ^ 63 := by
    rw [UInt64.toNat_and]
    exact Nat.and_two_pow v.toBits.toNat 63
  have hclear : (v.toBits &&& 0x8000000000000000).toNat % 2 ^ 63 = 0 := by
    rw [hsign, Nat.mul_mod_left]
  rw [truncate_eq, if_pos h]
  obtain ⟨hfinite, hvalue⟩ := toRat_ofBits (u := .zero .positive) trivial rfl
    (by rw [hclear, Nat.cast_zero, mul_zero]; rfl)
  refine ⟨hfinite, hvalue, Nat.floor_eq_zero.mpr ?_⟩
  -- with this exponent no mantissa reaches one
  have hexponent : (decode v).exponent ≤ -53 := by
    rw [decode_eq]
    split <;> dsimp only <;> omega
  exact abs_toRat_lt hv hexponent

omit hv in
theorem toNat_fractionBits (h : exponentField v < 1075) :
    (fractionBits v).toNat = 1075 - exponentField v := by
  have hle : ((v.toBits >>> 52) &&& 0x7FF) ≤ 1075 := by
    rw [UInt64.le_iff_toNat_le, toNat_field]
    exact h.le
  rw [fractionBits, UInt64.toNat_sub_of_le _ _ hle, toNat_field]
  rfl

omit hv in
/-- Clearing these bits takes nothing from the sign and the exponent. -/
theorem toNat_clear_fractionBits {k : ℕ} (hk : exponentField v = 1075 - k) (hk1 : 1 ≤ k)
    (hk52 : k ≤ 52) : ((v.toBits >>> fractionBits v) <<< fractionBits v).toNat =
      v.toBits.toNat / 2 ^ 52 * 2 ^ 52 + mantissaField v / 2 ^ k * 2 ^ k := by
  have hword : (fractionBits v).toNat = k := by
    rw [toNat_fractionBits (by omega)]
    omega
  -- the word in two parts, of which only the lower one is touched
  have hsplit : v.toBits.toNat = v.toBits.toNat / 2 ^ 52 * 2 ^ 52 + mantissaField v := by
    unfold mantissaField
    omega
  rw [toNat_clear _ hword (by omega)]
  conv_lhs => rw [hsplit]
  exact clear_add _ _ hk52

/-- Where some bits stand behind the binary point, these are cleared. -/
theorem toRat_truncate_of_between (hge : 1023 ≤ exponentField v) (h : exponentField v < 1075) :
    (truncate v).isFinite = true ∧
      toRat (truncate v) = unit (signOf (decode v).negative) * (⌊|toRat v|⌋₊ : ℕ) := by
  have hlt : v.toBits.toNat < 2 ^ 64 := v.toBits.toNat_lt
  have hpart : mantissaField v < 2 ^ 52 := Nat.mod_lt _ (by decide)
  -- how many bits are cleared, between one and all of the mantissa's
  obtain ⟨k, hk, hk1, hk52⟩ : ∃ k, exponentField v = 1075 - k ∧ 1 ≤ k ∧ k ≤ 52 :=
    ⟨1075 - exponentField v, by omega, by omega, by omega⟩
  have hexponent : (exponentField v : ℤ) - 1075 = -k := by omega
  let kept : ℕ := mantissaField v / 2 ^ k * 2 ^ k
  have hkept : kept ≤ mantissaField v := Nat.div_mul_le_self _ _
  -- what is left is canonical, so that its rank tells the bits
  have hcanonical : Canonical (2 ^ 52 + kept) (-k) :=
    ⟨by omega, by omega, by omega, .inl (Nat.le_add_right _ _)⟩
  have hrank : rank (2 ^ 52 + kept) (-k) = exponentField v * 2 ^ 52 + kept := by
    have hunits : (-(k : ℤ) + 1074).toNat = exponentField v - 1 := by omega
    rw [rank, hunits]
    omega
  let s : Sign := signOf (decide (2 ^ 63 ≤ v.toBits.toNat))
  let u : UnpackedFloat := .finite s (2 ^ 52 + kept) (-k) hcanonical.pos
  have hpacked : Packed u := ⟨hcanonical, by omega⟩
  have hplace : place u =
      unit (signOf (decide (2 ^ 63 ≤ ((v.toBits >>> fractionBits v) <<< fractionBits v).toNat))) *
        (((v.toBits >>> fractionBits v) <<< fractionBits v).toNat % 2 ^ 63 : ℕ) := by
    have hfield : exponentField v = v.toBits.toNat / 2 ^ 52 % 2 ^ 11 := rfl
    have hsign : decide (2 ^ 63 ≤ v.toBits.toNat / 2 ^ 52 * 2 ^ 52 + kept) =
        decide (2 ^ 63 ≤ v.toBits.toNat) :=
      decide_eq_decide.mpr (by omega)
    have hmagnitude : (v.toBits.toNat / 2 ^ 52 * 2 ^ 52 + kept) % 2 ^ 63 =
        exponentField v * 2 ^ 52 + kept := by omega
    rw [toNat_clear_fractionBits hk hk1 hk52, hsign, hmagnitude, ← hrank]
    rfl
  have hwhole : (2 ^ 52 + mantissaField v) / 2 ^ k * 2 ^ k = 2 ^ 52 + kept := by
    have hclear := clear_add 1 (mantissaField v) hk52
    rwa [Nat.one_mul] at hclear
  -- the whole part of the magnitude is the mantissa without these bits
  have hfloor : ⌊|toRat v|⌋₊ = (2 ^ 52 + mantissaField v) / 2 ^ k := by
    have hshift : (-(k : ℤ)).toNat = 0 := by omega
    rw [abs_toRat hv, floor_mul_two_pow, decode_eq, if_neg (by omega), hexponent]
    dsimp only
    rw [hshift, Nat.pow_zero, Nat.mul_one, neg_neg, Int.toNat_natCast]
  rw [truncate_eq, if_neg (by omega), if_pos h]
  obtain ⟨hfinite, hvalue⟩ := toRat_ofBits hpacked rfl hplace
  refine ⟨hfinite, hvalue.trans ?_⟩
  rw [hfloor, decode_negative, isNegative_eq]
  show (unit s : ℚ) * ((2 ^ 52 + kept : ℕ) * 2 ^ (-(k : ℤ))) = _
  rw [← hwhole, zpow_neg, zpow_natCast, Nat.cast_mul, Nat.cast_pow, Nat.cast_two,
    mul_inv_cancel_right₀ (by positivity)]

/-- Where none stand behind it, the number is whole. -/
theorem abs_toRat_of_le (h : 1075 ≤ exponentField v) : |toRat v| = (⌊|toRat v|⌋₊ : ℕ) := by
  have hexponent : 0 ≤ (decode v).exponent := by
    rw [decode_eq, if_neg (by omega)]
    dsimp only
    omega
  obtain ⟨n, hn⟩ := Int.eq_ofNat_of_zero_le hexponent
  have hcast : ((decode v).mantissa * 2 ^ (n : ℤ) : ℚ) = ((decode v).mantissa * 2 ^ n : ℕ) := by
    push_cast
    rw [zpow_natCast]
  rw [abs_toRat hv, hn, hcast, Nat.floor_natCast]

/-- **Truncation is exact:** it leaves the whole part of the magnitude, and the sign. -/
theorem toRat_truncate : (truncate v).isFinite = true ∧
    toRat (truncate v) = unit (signOf (decode v).negative) * (⌊|toRat v|⌋₊ : ℕ) := by
  -- by how many bits stand behind the point: all, some or none
  rcases Nat.lt_or_ge (exponentField v) 1023 with h | hge
  · obtain ⟨hfinite, hvalue, hfloor⟩ := toRat_truncate_of_lt hv h
    exact ⟨hfinite, by rw [hvalue, hfloor, Nat.cast_zero, mul_zero]⟩
  rcases Nat.lt_or_ge (exponentField v) 1075 with h | hge'
  · exact toRat_truncate_of_between hv hge h
  · rw [truncate_eq, if_neg (by omega), if_neg (by omega), ← abs_toRat_of_le hv hge', abs_toRat hv]
    exact ⟨hv, (toRat_decode hv).symm⟩

end Truncate

/-! ### Rounding up -/

section Ceil

variable (hv : v.isFinite = true)
include hv

/-- The sign and the magnitude. -/
theorem toRat_eq_unit_mul : toRat v = unit (signOf (decode v).negative) * |toRat v| := by
  rw [abs_toRat hv]
  exact (toRat_decode hv).symm

/-- What is not below zero is truncated downwards. -/
theorem toRat_truncate_of_nonneg (h : 0 ≤ toRat v) : toRat (truncate v) = ⌊toRat v⌋ := by
  have hself := toRat_eq_unit_mul hv
  rw [(toRat_truncate hv).2]
  rw [abs_of_nonneg h] at hself ⊢
  rw [← natCast_floor_eq_intCast_floor h]
  -- of the numbers that are not below zero, only zero can have a sign in front
  cases hs : (decode v).negative
  · show ((1 : ℤ) : ℚ) * _ = _
    rw [Int.cast_one, one_mul]
  · have hzero : toRat v = 0 := by
      rw [hs] at hself
      change toRat v = ((-1 : ℤ) : ℚ) * toRat v at hself
      push_cast at hself
      linarith
    rw [hzero, Nat.floor_zero, Nat.cast_zero, mul_zero]

/-- And what is not above zero is truncated upwards. -/
theorem toRat_truncate_of_nonpos (h : toRat v ≤ 0) : toRat (truncate v) = ⌈toRat v⌉ := by
  have hself := toRat_eq_unit_mul hv
  have hneg : 0 ≤ -toRat v := neg_nonneg.mpr h
  rw [(toRat_truncate hv).2]
  rw [abs_of_nonpos h] at hself ⊢
  rw [natCast_floor_eq_intCast_floor hneg, Int.floor_neg]
  cases hs : (decode v).negative
  · have hzero : toRat v = 0 := by
      rw [hs] at hself
      change toRat v = ((1 : ℤ) : ℚ) * -toRat v at hself
      push_cast at hself
      linarith
    rw [hzero, Int.ceil_zero, neg_zero, Int.cast_zero, mul_zero]
  · show ((-1 : ℤ) : ℚ) * ((-⌈toRat v⌉ : ℤ) : ℚ) = _
    push_cast
    ring

/-- Where truncation takes something away, the whole part has fewer bits than a mantissa. -/
theorem abs_toRat_lt_of_truncate (h : toRat (truncate v) ≠ toRat v) : |toRat v| < 2 ^ 52 := by
  -- with so great an exponent nothing is cleared
  have hless : exponentField v < 1075 := by
    by_contra hge
    rw [truncate_eq, if_neg (by omega), if_neg hge] at h
    exact h rfl
  have hexponent : (decode v).exponent ≤ -1 := by
    rw [decode_eq]
    split <;> dsimp only <;> omega
  exact abs_toRat_lt hv hexponent

omit hv in
/-- One is added to a whole number without rounding, if the sum has no more bits than a mantissa. -/
theorem toRat_add_one {t : Float} (ht : t.isFinite = true) {n : ℕ} (hn : toRat t = n)
    (hlt : n + 1 < 2 ^ 53) : (t + 1.0).isFinite = true ∧ toRat (t + 1.0) = (n + 1 : ℕ) := by
  have hsum : toRat t + toRat 1.0 = (n + 1 : ℕ) := by
    rw [hn, toRat_one]
    push_cast
    rfl
  have hrep : Representable ((n + 1 : ℕ) : ℚ) := by
    have hscaled := representable_mul_two_pow hlt (e := 0) (by decide) (by decide)
    rwa [zpow_zero, mul_one] at hscaled
  obtain ⟨hfinite, hge, hle⟩ := (rounds_float_add ht isFinite_one).between hrep hrep hsum.ge hsum.le
  exact ⟨hfinite, le_antisymm hle hge⟩

/-- **Rounding up is exact.** -/
theorem toRat_ceil : (ceil v).isFinite = true ∧ toRat (ceil v) = ⌈toRat v⌉ := by
  obtain ⟨hfinite, -⟩ := toRat_truncate hv
  have hlt : truncate v < v ↔ toRat (truncate v) < toRat v := lt_iff_toRat hfinite hv
  unfold ceil
  dsimp only
  -- truncation of what is not above zero rounds up already
  rcases le_or_gt (toRat v) 0 with hneg | hpos
  · have hvalue := toRat_truncate_of_nonpos hv hneg
    rw [if_neg (by rw [hlt, hvalue, not_lt]; exact Int.le_ceil _)]
    exact ⟨hfinite, hvalue⟩
  have hvalue := toRat_truncate_of_nonneg hv hpos.le
  -- above zero it rounds down, and one is missing where something was cleared
  by_cases hcleared : truncate v < v
  · rw [if_pos hcleared]
    rw [hlt] at hcleared
    have hbound := (le_abs_self _).trans_lt (abs_toRat_lt_of_truncate hv hcleared.ne)
    rw [hvalue] at hcleared
    obtain ⟨n, hn⟩ : ∃ n : ℕ, ⌊toRat v⌋ = n :=
      Int.eq_ofNat_of_zero_le (Int.floor_nonneg.mpr hpos.le)
    have hceil : ⌈toRat v⌉ = ⌊toRat v⌋ + 1 := by
      rw [Int.ceil_eq_iff]
      push_cast
      exact ⟨by linarith, (Int.lt_floor_add_one _).le⟩
    rw [hn, Int.cast_natCast] at hcleared hvalue
    -- the number is small there, so that the sum with one is exact
    have hsmall : n < 2 ^ 52 := by exact_mod_cast hcleared.trans hbound
    obtain ⟨hfinite', hsum⟩ := toRat_add_one hfinite hvalue (by omega)
    refine ⟨hfinite', hsum.trans ?_⟩
    rw [hceil, hn]
    push_cast
    rfl
  · rw [if_neg hcleared]
    rw [hlt, hvalue, not_lt] at hcleared
    have hceil : ⌈toRat v⌉ = ⌊toRat v⌋ :=
      le_antisymm (Int.ceil_le.mpr hcleared) (Int.floor_le_ceil _)
    exact ⟨hfinite, hvalue.trans (by rw [hceil])⟩

end Ceil

/-! ### Counts -/

theorem toNat_ofNatClamp (n : ℕ) : (UInt64.ofNatClamp n).toNat = min n (2 ^ 64 - 1) := by
  have hsize : UInt64.size = 2 ^ 64 := rfl
  unfold UInt64.ofNatClamp
  split <;>
  · rw [UInt64.toNat_ofNatLT]
    omega

/-- The whole part of a number is what is left of it when it is shifted. -/
theorem toNat_roundToInt (s : Sign) (m : ℕ) (e : ℤ) :
    (UnpackedFloat.roundToInt s m e).toNat = ⌊(unit s : ℚ) * (m * 2 ^ e)⌋₊ := by
  -- the model shifts by the bits behind the binary point
  have hshift : (0 - (e - e.toNat)).toNat = (-e).toNat := by omega
  rw [roundToInt_eq, Int.sub_zero, (whole_shift _ _).1, Nat.shiftLeft_eq, hshift]
  cases s with
  | positive =>
    rw [← floor_mul_two_pow]
    exact congrArg Nat.floor (one_mul (m * 2 ^ e : ℚ)).symm
  | negative =>
    have hneg : ((unit .negative : ℤ) : ℚ) * (m * 2 ^ e) ≤ 0 :=
      mul_nonpos_of_nonpos_of_nonneg (by decide) (by positivity)
    -- below zero the cast saturates at zero
    rw [Nat.floor_of_nonpos hneg]
    generalize m * 2 ^ e.toNat / 2 ^ (-e).toNat = q
    show (-(q : ℤ)).toNat = 0
    omega

/-- **The whole part of a number is a count of 64 bits,** the greatest one if it is no less. -/
theorem toNat_eq_min (hv : v.isFinite = true) : toNat v = min ⌊toRat v⌋₊ (2 ^ 64 - 1) := by
  have hmodel : v.toModel.unpack.isFinite = true := hv
  have hwhole : (v.toModel.unpack.toInt 0 (UInt64.size - 1)).toNat = ⌊toRat v⌋₊ := by
    unfold toRat
    cases hu : v.toModel.unpack with
    | notANumber | infinity =>
      rw [hu] at hmodel
      cases hmodel
    | zero s => exact Nat.floor_zero.symm
    | finite s m e h => exact toNat_roundToInt s m e
  rw [← hwhole]
  exact toNat_ofNatClamp _

/-- Only the greatest exponent is that of infinities and of what is no number. -/
theorem isFinite_of_exponentField (h : exponentField v ≠ 2047) : v.isFinite = true := by
  show (UnpackedFloat.unpack Format.binary64 v.toBits.toBitVec).isFinite = true
  rw [unpack_fields]
  dsimp only
  rw [if_neg (show ¬ v.toBits.toBitVec.toNat / 2 ^ 52 % 2 ^ 11 = 2047 from h)]
  -- with the least exponent a number is zero or subnormal
  by_cases hleast : v.toBits.toBitVec.toNat / 2 ^ 52 % 2 ^ 11 = 0
  · rw [if_pos hleast]
    by_cases hzero : v.toBits.toBitVec.toNat % 2 ^ 52 = 0
    · rw [dif_pos hzero]
      rfl
    · rw [dif_neg hzero]
      rfl
  · rw [if_neg hleast]
    rfl

/-- These are left alone when they are rounded up. -/
theorem ceil_of_not_finite (hv : v.isFinite = false) : (ceil v).isFinite = false := by
  -- such doubles have the greatest exponent, and truncation leaves them alone
  have hfield : exponentField v = 2047 := by
    by_contra hne
    rw [isFinite_of_exponentField hne] at hv
    cases hv
  have hself : truncate v = v := by
    rw [truncate_eq, if_neg (by omega), if_neg (by omega)]
  unfold ceil
  dsimp only
  rw [hself]
  by_cases hlt : v < v
  · -- no double is less than itself
    rw [lt_iff] at hlt
    have hmodel : v.toModel.unpack.isFinite = false := hv
    cases hu : v.toModel.unpack with
    | notANumber =>
      rw [hu] at hlt
      cases hlt
    | infinity s =>
      rw [hu] at hlt
      cases s <;> cases hlt
    | zero | finite =>
      rw [hu] at hmodel
      cases hmodel
  · rw [if_neg hlt]
    exact hv

end CurvePlot.Double
