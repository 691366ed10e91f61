import CurvePlot.Proofs.Double.Bounds
import CurvePlot.Proofs.Double.Fused
/-!
# Decimal fractions are rounded correctly

`Float.ofScientific m true k` is the double nearest to `m / 10 ^ k`. Short numbers are divided
by a power of ten that is a double (`isPowerOfTen_table`), and all others as they are, however
many bits they have; what is too small to be told from zero is not divided at all. In each of
these ways the exact number is rounded once (`rounds_ofScientific`).

A double is settled by its sign and its place (`eq_of_place`), and what is read from digits has
no sign (`isNegative_ofScientific`).
-/

namespace CurvePlot.Double

open Float.Model (Format UnpackedFloat)
open Float.Model.UnpackedFloat (Sign Accuracy)

/-! ### Numbers without a sign -/

/-- The number has no minus sign; zero has a sign too. -/
def Unsigned : UnpackedFloat → Prop
  | .notANumber => True
  | .infinity s | .zero s | .finite s _ _ _ => s = .positive

/-- A number without a sign comes of two choices without one. -/
theorem Unsigned.dite {p : Prop} [Decidable p] {u : p → UnpackedFloat} {v : ¬p → UnpackedFloat}
    (hu : ∀ h, Unsigned (u h)) (hv : ∀ h, Unsigned (v h)) :
    Unsigned (if h : p then u h else v h) := by
  by_cases h : p
  · rw [dif_pos h]
    exact hu h
  · rw [dif_neg h]
    exact hv h

/-- The same where a choice does not depend on what was decided. -/
theorem Unsigned.ite {p : Prop} [Decidable p] {u v : UnpackedFloat} (hu : Unsigned u)
    (hv : Unsigned v) : Unsigned (if p then u else v) :=
  .dite (fun _ => hu) fun _ => hv

/-- **A number has no sign** if its first bit is not set. -/
theorem unsigned_unpack {bits : BitVec 64} (h : bits.toNat < 2 ^ 63) :
    Unsigned (UnpackedFloat.unpack Format.binary64 bits) := by
  have hsign : signOf (decide (2 ^ 63 ≤ bits.toNat)) = .positive := by
    rw [decide_eq_false (Nat.not_le.mpr h)]
    rfl
  -- the sign is the first bit, whatever the other fields make of the number
  rw [unpack_fields]
  dsimp only
  rw [hsign]
  have hzero : Unsigned (.zero .positive) := rfl
  exact .ite (.ite rfl trivial) (.ite (.dite (fun _ => hzero) fun _ => rfl) rfl)

/-- Without a sign, the fields do not reach the first bit. -/
theorem toNat_packComponents_lt (x : BitVec 11) (y : BitVec 52) :
    (UnpackedFloat.packComponents Format.binary64 .positive x y).toNat < 2 ^ 63 := by
  have hsign := unpackSign_packComponents .positive x y
  rw [ofBitVec_unpackSign] at hsign
  refine Nat.not_le.mp fun hle => ?_
  rw [decide_eq_true hle] at hsign
  cases hsign

/-- What has no sign has none in its bits. -/
theorem Unsigned.toNat_pack_lt {u : UnpackedFloat} (hu : Unsigned u) :
    (UnpackedFloat.pack Format.binary64 u).toNat < 2 ^ 63 := by
  cases u with
  | notANumber => decide +kernel
  | infinity s =>
    obtain rfl : s = .positive := hu
    decide +kernel
  | zero s =>
    obtain rfl : s = .positive := hu
    decide +kernel
  | finite s m e h =>
    obtain rfl : s = .positive := hu
    rw [pack_finite]
    split
    · decide +kernel
    · -- the fields of a subnormal number and those of a normal one
      split
      · exact toNat_packComponents_lt _ _
      · exact toNat_packComponents_lt _ _

/-- Packing and unpacking gives no sign. -/
theorem Unsigned.repack {u : UnpackedFloat} (hu : Unsigned u) : Unsigned (repack u) :=
  unsigned_unpack hu.toNat_pack_lt

/-- So the double that is packed has no sign. -/
theorem isNegative_ofModel_pack {u : UnpackedFloat} (hu : Unsigned u) :
    isNegative (Float.ofModel (.pack u)) = false := by
  rw [isNegative_eq]
  exact decide_eq_false (Nat.not_le.mpr hu.toNat_pack_lt)

/-- Rounding keeps the sign that is asked for. -/
theorem unsigned_roundWithAccuracy (m : ℕ) (e : ℤ) (acc : Accuracy) :
    Unsigned (UnpackedFloat.roundWithAccuracy Format.binary64 .positive m e acc) := by
  unfold UnpackedFloat.roundWithAccuracy
  dsimp only
  exact .dite (fun _ => rfl) fun _ => rfl

/-- The product of numbers without a sign has none. -/
theorem Unsigned.mul {u v : UnpackedFloat} (hu : Unsigned u) (hv : Unsigned v) :
    Unsigned (UnpackedFloat.mul Format.binary64 u v) := by
  cases u with
  | notANumber => trivial
  | infinity s | zero s =>
    obtain rfl : s = .positive := hu
    cases v with
    | notANumber => trivial
    | infinity s' | zero s' | finite s' =>
      obtain rfl : s' = .positive := hv
      -- the product of an infinity and zero is no number, and has no sign either
      first | rfl | trivial
  | finite s m e h =>
    obtain rfl : s = .positive := hu
    cases v with
    | notANumber => trivial
    | infinity s' | zero s' =>
      obtain rfl : s' = .positive := hv
      rfl
    | finite s' m' e' h' =>
      obtain rfl : s' = .positive := hv
      exact unsigned_roundWithAccuracy _ _ _

/-- The quotient of numbers without a sign has none. -/
theorem Unsigned.div {u v : UnpackedFloat} (hu : Unsigned u) (hv : Unsigned v) :
    Unsigned (UnpackedFloat.div Format.binary64 u v) := by
  cases u with
  | notANumber => trivial
  | infinity s | zero s =>
    obtain rfl : s = .positive := hu
    cases v with
    | notANumber => trivial
    | infinity s' | zero s' | finite s' =>
      obtain rfl : s' = .positive := hv
      first | rfl | trivial
  | finite s m e h =>
    obtain rfl : s = .positive := hu
    cases v with
    | notANumber => trivial
    | infinity s' | zero s' =>
      obtain rfl : s' = .positive := hv
      rfl
    | finite s' m' e' h' =>
      obtain rfl : s' = .positive := hv
      exact unsigned_roundWithAccuracy _ _ _

/-- A count has no sign. -/
theorem unsigned_ofNat (n : ℕ) : Unsigned (UnpackedFloat.ofNat Format.binary64 n) := by
  unfold UnpackedFloat.ofNat UnpackedFloat.ofInt UnpackedFloat.normalize
  split
  · next h => exact absurd (compare_lt_iff_lt.mp h) (by omega)
  · rfl
  · exact unsigned_roundWithAccuracy _ _ _

/-- A decimal has no sign. -/
theorem unsigned_ofScientific (m : ℕ) (e : ℤ) :
    Unsigned (UnpackedFloat.ofScientific Format.binary64 m e) := by
  unfold UnpackedFloat.ofScientific
  have hround (m : ℕ) (e : ℤ) (acc : Accuracy) := unsigned_roundWithAccuracy m e acc
  -- it is zero, an infinity, a product or a quotient, and the last two are rounded
  exact .dite (fun _ => rfl) fun _ => .ite rfl (.ite rfl (.ite (hround _ _ _) (hround _ _ _)))

/-! ### Powers of ten -/

/-- Whether a number is this power of ten, which takes whole numbers to tell. -/
def isPowerOfTen (k : ℕ) : UnpackedFloat → Bool
  | .finite .positive m e _ => m * 2 ^ e.toNat == 10 ^ k * 2 ^ (-e).toNat
  | _ => false

/-- A number that is a power of ten by its fields has it for its value. -/
theorem value_of_isPowerOfTen {k : ℕ} {u : UnpackedFloat} (h : isPowerOfTen k u = true) :
    u.isFinite = true ∧ Unsigned u ∧ value u = 10 ^ k := by
  cases u with
  | notANumber | infinity | zero => cases h
  | finite s m e hm =>
    cases s with
    | negative => cases h
    | positive =>
      refine ⟨rfl, rfl, ?_⟩
      -- one of the two powers of two is one, by the sign of the exponent
      have hnat : m * 2 ^ e.toNat = 10 ^ k * 2 ^ (-e).toNat := eq_of_beq h
      have hrat : (m : ℚ) * 2 ^ e.toNat = 10 ^ k * 2 ^ (-e).toNat := by exact_mod_cast hnat
      have hpow : (2 : ℚ) ^ e = 2 ^ e.toNat / 2 ^ (-e).toNat := by
        rw [← zpow_natCast, ← zpow_natCast, ← zpow_sub₀ two_ne_zero]
        congr 1
        omega
      show ((1 : ℤ) : ℚ) * (m * 2 ^ e) = 10 ^ k
      rw [hpow, Int.cast_one, one_mul, ← mul_div_assoc, hrat]
      exact mul_div_cancel_right₀ _ (by positivity)

/-- **The table holds the powers of ten,** without an error in any of them. -/
theorem isPowerOfTen_table : ∀ k, (h : k < Float.exactlyRepresentablePowersOfTen.size) →
    isPowerOfTen k Float.exactlyRepresentablePowersOfTen[k].toModel.unpack = true := by
  decide +kernel

/-- What is rounded to a number that is a double is that number. -/
theorem Rounds.value_eq {u v : UnpackedFloat} (hu : Rounds (value v) u) (hp : Packed u)
    (hv : Packed v) (hfin : v.isFinite = true) : u.isFinite = true ∧ value u = value v := by
  -- both are what the number is rounded to, and rounding keeps the order
  have hself := Rounds.self hv hfin
  have hplace : place u = place v := le_antisymm (hu.mono hself le_rfl) (hself.mono hu le_rfl)
  have hufin : u.isFinite = true := by
    obtain ⟨hlower, hupper⟩ := hv.place_bounds hfin
    rw [← hplace] at hlower hupper
    change -1 * (beyond : ℤ) < _ at hlower
    change _ < 1 * (beyond : ℤ) at hupper
    exact isFinite_of_place hu.isNumber (by omega) (by omega)
  exact ⟨hufin, value_eq_of_place hp hv hufin hfin hplace⟩

/-- A count that is no longer than a mantissa is converted as it is. -/
theorem toRat_toFloat {n : ℕ} (hn : n < 2 ^ 53) :
    n.toUInt64.toFloat.isFinite = true ∧ Unsigned n.toUInt64.toFloat.toModel.unpack ∧
      toRat n.toUInt64.toFloat = n := by
  have hword : n.toUInt64.toNat = n := UInt64.toNat_ofNat_of_lt' (by
    rw [show UInt64.size = 2 ^ 64 from rfl]
    omega)
  have hunpack : n.toUInt64.toFloat.toModel.unpack =
      repack (UnpackedFloat.ofNat Format.binary64 n) := by
    show repack (UnpackedFloat.ofNat Format.binary64 n.toUInt64.toNat) = _
    rw [hword]
  -- rounding does nothing to a number that is a double
  have hrounds : Rounds n (repack (UnpackedFloat.ofNat Format.binary64 n)) := by
    have hround := rounds_normalize n 0 .positive
    rw [zpow_zero, mul_one, Int.cast_natCast] at hround
    exact hround
  obtain ⟨v, hv, hfin, hvalue⟩ : Representable n := by
    have hrep := representable_mul_two_pow hn (by decide : (-1022 : ℤ) ≤ 0) (by decide)
    rwa [zpow_zero, mul_one] at hrep
  rw [← hunpack, ← hvalue] at hrounds
  obtain ⟨hfin', hvalue'⟩ := hrounds.value_eq (packed _) hv hfin
  refine ⟨hfin', ?_, hvalue'.trans hvalue⟩
  rw [hunpack]
  exact (unsigned_ofNat n).repack

/-! ### Fractions -/

/-- A number that is not divided is too small to be told from zero. -/
theorem div_ten_pow_le {m k : ℕ} (h : 2 ^ 11 + m.log2 < k) :
    (m : ℚ) / 10 ^ k ≤ 2 ^ (-1075 : ℤ) := by
  have hm : (m : ℚ) ≤ 2 ^ (m.log2 + 1) := by exact_mod_cast Nat.lt_log2_self.le
  have hk : (2 : ℚ) ^ k ≤ 10 ^ k := pow_le_pow_left₀ (by norm_num) (by norm_num) k
  calc (m : ℚ) / 10 ^ k ≤ 2 ^ (m.log2 + 1) / 2 ^ k :=
        div_le_div₀ (by positivity) hm (by positivity) hk
    _ = 2 ^ ((m.log2 + 1 : ℕ) - k : ℤ) := by
        rw [zpow_sub₀ two_ne_zero, zpow_natCast, zpow_natCast]
    _ ≤ 2 ^ (-1075 : ℤ) := zpow_le_zpow_right₀ (by norm_num) (by omega)

/-- Whole numbers are divided as the fraction says. -/
theorem value_div_ten_pow {m k : ℕ} (hm : 0 < m) (hk : 0 < 10 ^ k) :
    value (.finite .positive m 0 hm) / value (.finite .positive (10 ^ k) 0 hk) = m / 10 ^ k := by
  show ((1 : ℤ) : ℚ) * (m * 2 ^ (0 : ℤ)) / ((1 : ℤ) * ((10 ^ k : ℕ) * 2 ^ (0 : ℤ))) = _
  push_cast
  ring

/-- What is not divided as a double is divided as it is, or is too small. -/
theorem rounds_unpacked_ofScientific (m : ℕ) {k : ℕ} (hk : 0 < k) :
    Rounds (m / 10 ^ k) (repack (UnpackedFloat.ofScientific Format.binary64 m (-(k : ℤ)))) := by
  have hbits : (2 : ℤ) ^ Format.binary64.exponentBits = 2 ^ 11 := rfl
  unfold UnpackedFloat.ofScientific
  rw [hbits]
  by_cases hm : m = 0
  · -- nothing is divided
    rw [dif_pos hm, hm, Nat.cast_zero, zero_div]
    exact rounds_zero _
  · rw [dif_neg hm, if_neg (by omega)]
    by_cases hsmall : -(k : ℤ) < -(2 ^ 11 + (m.log2 : ℤ))
    · -- no more than half of the least double, so that zero is nearest
      have hle : (m : ℚ) / 10 ^ k ≤ 2 ^ (-1075 : ℤ) := div_ten_pow_le (by omega)
      rw [if_pos hsmall, repack, unpack_pack_zero]
      exact ⟨UnpackedFloat.noConfusion, .positive, _, 0, by positivity, by norm_num [unit],
        .zero_of_le (by positivity) hle, rfl⟩
    · have hround (places : ℕ) (hplaces : places = k) (hpow : 0 < 10 ^ places) :
          Rounds (m / 10 ^ k) (repack (UnpackedFloat.div Format.binary64
            (.finite .positive m 0 (Nat.pos_of_ne_zero hm))
            (.finite .positive (10 ^ places) 0 hpow))) := by
        subst hplaces
        rw [← value_div_ten_pow (Nat.pos_of_ne_zero hm) hpow]
        exact rounds_div_finite .positive .positive (Nat.pos_of_ne_zero hm) hpow 0 0
      rw [if_neg hsmall, if_neg (by omega)]
      exact hround _ (by omega) _

/-- **A decimal fraction is rounded correctly.** -/
theorem rounds_ofScientific (m : ℕ) {k : ℕ} (hk : 0 < k) :
    Rounds (m / 10 ^ k) (Float.ofScientific m true k).toModel.unpack := by
  unfold Float.ofScientific
  split
  · -- a short number is divided by a power of ten
    next h =>
    obtain ⟨hfin, -, hnum⟩ := toRat_toFloat h.1
    obtain ⟨hfin', -, hden⟩ := value_of_isPowerOfTen (isPowerOfTen_table k (Nat.lt_succ_of_le h.2))
    have hround := rounds_float_div hfin hfin' (by rw [toRat, hden]; positivity)
    rw [hnum, toRat, hden] at hround
    exact hround
  · -- a long one is divided with all its bits
    have hneg : Int.negOfNat k = -(k : ℤ) := Int.negOfNat_eq
    show Rounds (m / 10 ^ k) (repack (UnpackedFloat.ofScientific Format.binary64 m (Int.negOfNat k)))
    rw [hneg]
    exact rounds_unpacked_ofScientific m hk

/-- What is read from digits has no sign. -/
theorem isNegative_ofScientific (m : ℕ) (s : Bool) (k : ℕ) :
    isNegative (Float.ofScientific m s k) = false := by
  unfold Float.ofScientific
  split
  · next h =>
    obtain ⟨-, hnum, -⟩ := toRat_toFloat h.1
    obtain ⟨-, hden, -⟩ := value_of_isPowerOfTen (isPowerOfTen_table k (Nat.lt_succ_of_le h.2))
    cases s
    · -- a whole number is multiplied by a power of ten
      exact isNegative_ofModel_pack (hnum.mul hden)
    · -- a fraction is divided by it
      exact isNegative_ofModel_pack (hnum.div hden)
  · -- this one was rounded from all of its bits
    exact isNegative_ofModel_pack (unsigned_ofScientific m _)

/-! ### Equal doubles -/

/-- The place of a number is the number that its bits are, with its sign put before it. -/
theorem place_eq_magnitude {v : Float} (hv : v.toModel.unpack ≠ .notANumber) :
    place v.toModel.unpack = unit (signOf (isNegative v)) * (v.toBits.toNat % 2 ^ 63 : ℕ) := by
  have hbeyond : beyond = 2047 * 2 ^ 52 := rfl
  have hbound : v.toBits.toBitVec.toNat % 2 ^ 63 ≤ beyond := by
    by_contra hnot
    -- beyond the infinities there is no number
    refine hv ?_
    show UnpackedFloat.unpack Format.binary64 v.toBits.toBitVec = .notANumber
    rw [unpack_fields]
    dsimp only
    rw [if_pos (by omega), if_neg (by omega)]
  rw [isNegative_eq]
  exact (place_unpack hbound).2

/-- The place of a number without a sign is the number that its bits are. -/
theorem place_eq_toBits {v : Float} (hv : v.toModel.unpack ≠ .notANumber)
    (hsign : isNegative v = false) : place v.toModel.unpack = v.toBits.toNat := by
  have hlt : v.toBits.toNat < 2 ^ 63 := by
    rw [isNegative_eq] at hsign
    exact Nat.not_le.mp (of_decide_eq_false hsign)
  rw [place_eq_magnitude hv, hsign, Nat.mod_eq_of_lt hlt]
  exact one_mul _

/-- **A number is settled by its place and its sign.** -/
theorem eq_of_place {v w : Float} (hv : v.toModel.unpack ≠ .notANumber)
    (hw : w.toModel.unpack ≠ .notANumber) (hsign : isNegative v = isNegative w)
    (h : place v.toModel.unpack = place w.toModel.unpack) : v = w := by
  rw [place_eq_magnitude hv, place_eq_magnitude hw, hsign] at h
  have hunit : unit (signOf (isNegative w)) ≠ 0 := by cases isNegative w <;> decide
  have hmagnitude := Int.ofNat_inj.mp (mul_left_cancel₀ hunit h)
  have hbits : v.toModel.toBits = w.toModel.toBits := by
    refine UInt64.toNat_inj.mp ?_
    -- the sign is the first bit, and the place has all others
    have hlt : v.toBits.toNat < 2 ^ 64 := v.toBits.toNat_lt
    have hlt' : w.toBits.toNat < 2 ^ 64 := w.toBits.toNat_lt
    rw [isNegative_eq, isNegative_eq, decide_eq_decide] at hsign
    show v.toBits.toNat = w.toBits.toNat
    omega
  obtain ⟨⟨bits, hvalid⟩⟩ := v
  obtain ⟨⟨bits', hvalid'⟩⟩ := w
  cases hbits
  rfl

/-- **What a number is rounded to is settled** but for the sign of a zero. -/
theorem Rounds.eq {x : ℚ} {v w : Float} (hv : Rounds x v.toModel.unpack)
    (hw : Rounds x w.toModel.unpack) (hsign : isNegative v = isNegative w) : v = w :=
  eq_of_place hv.isNumber hw.isNumber hsign (le_antisymm (hv.mono hw le_rfl) (hw.mono hv le_rfl))

section Neg

variable {v : Float} (hv : v.toModel.unpack ≠ .notANumber)
include hv

/-- The sign of a double is turned in its fields. -/
theorem unpack_neg_of_isNumber : (-v).toModel.unpack = v.toModel.unpack.neg :=
  (packed v).neg.unpack_pack (isNumber_neg hv)

/-- With its sign turned, a number that had none has one. -/
theorem isNegative_neg (hsign : isNegative v = false) : isNegative (-v) = true := by
  have hunsigned {w : Float} (hw : isNegative w = false) : Unsigned w.toModel.unpack := by
    rw [isNegative_eq] at hw
    exact unsigned_unpack (Nat.not_le.mp (of_decide_eq_false hw))
  by_contra hnot
  have hneg := hunsigned (Bool.not_eq_true _ ▸ hnot)
  have hpos := hunsigned hsign
  rw [unpack_neg_of_isNumber hv] at hneg
  cases hu : v.toModel.unpack with
  | notANumber => exact hv hu
  -- zero and infinity have signs too
  | infinity s | zero s | finite s =>
    rw [hu] at hneg hpos
    obtain rfl : s = .positive := hpos
    cases hneg

end Neg

/-- What is rounded to a double, turned around, is rounded to its opposite. -/
theorem rounds_float_neg {x : ℚ} {v : Float} (h : Rounds x v.toModel.unpack) :
    Rounds (-x) (-v).toModel.unpack := by
  rw [unpack_neg_of_isNumber h.isNumber]
  exact h.neg

/-- And so it is by what it compares equal to. -/
theorem eq_of_beq {v w : Float} (hv : v.isFinite = true) (hw : w.isFinite = true)
    (hv' : isNegative v = false) (hw' : isNegative w = false) (h : (v == w) = true) : v = w :=
  eq_of_place (isNumber_of_isFinite hv) (isNumber_of_isFinite hw) (hv'.trans hw'.symm)
    ((beq_iff_place (isNumber_of_isFinite hv) (isNumber_of_isFinite hw)).mp h)

/-- The dyadic form has the sign of the double. -/
theorem decode_negative (v : Float) : (decode v).negative = isNegative v := by
  rw [decode_eq]
  split <;> rfl

/-- A double without a sign has the place of its dyadic form. -/
theorem place_eq_rank {v : Float} (hv : v.isFinite = true) (hsign : isNegative v = false) :
    place v.toModel.unpack = rank (decode v).mantissa (decode v).exponent := by
  have hbits := toNat_toBits v
  rw [decode_negative, hsign, if_neg Bool.false_ne_true, Nat.zero_add] at hbits
  rw [place_eq_toBits (isNumber_of_isFinite hv) hsign, hbits]
  rfl

/-- What is not below zero is rounded to the double of its rank, if that has no sign. -/
theorem Rounds.place_eq_rank {x : ℚ} {u : UnpackedFloat} {r : ℕ} (h : Rounds x u) (hx : 0 ≤ x)
    (hr : RankOf x r) : place u = (min r beyond : ℕ) := by
  obtain ⟨s, y, r', hy, rfl, hr', hplace⟩ := h.place_eq
  rw [hplace]
  cases s with
  | positive =>
    rw [show unit .positive = 1 from rfl, Int.cast_one, one_mul] at hr
    rw [show unit .positive = 1 from rfl, one_mul,
      le_antisymm (hr'.mono hr le_rfl) (hr.mono hr' le_rfl)]
  | negative =>
    -- then the number is zero
    rw [show unit .negative = -1 from rfl, Int.cast_neg, Int.cast_one, neg_one_mul] at hx hr
    have hzero : y = 0 := by linarith
    rw [hzero, neg_zero] at hr
    rw [hzero] at hr'
    rw [Nat.le_zero.mp (hr.mono .zero le_rfl), Nat.le_zero.mp (hr'.mono .zero le_rfl)]
    rfl

/-- **A double without a sign is what numbers of its rank are rounded to.** -/
theorem eq_of_rounds {v w : Float} {y : ℚ} (hv : v.isFinite = true) (hsign : isNegative v = false)
    (hsign' : isNegative w = false) (hy : 0 ≤ y)
    (hrank : RankOf y (rank (decode v).mantissa (decode v).exponent))
    (hw : Rounds y w.toModel.unpack) : w = v := by
  have hplace := hw.place_eq_rank hy hrank
  obtain ⟨hlower, hupper⟩ := (packed v).place_bounds hv
  change -1 * (beyond : ℤ) < _ at hlower
  change _ < 1 * (beyond : ℤ) at hupper
  rw [Double.place_eq_rank hv hsign] at hlower hupper
  -- the rank is that of a finite number, so nothing is cut off at the greatest double
  rw [min_eq_left (by omega), ← Double.place_eq_rank hv hsign] at hplace
  exact eq_of_place hw.isNumber (isNumber_of_isFinite hv) (hsign'.trans hsign.symm) hplace

end CurvePlot.Double
