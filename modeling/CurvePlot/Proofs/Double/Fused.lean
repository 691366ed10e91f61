import CurvePlot.Proofs.Double.Arithmetic
/-!
# The fused multiply-add is correctly rounded

`fma` goes another way than the operations of the logic: it decodes the bits of a double,
computes with dyadic numbers and puts the bits of the nearest double together. That way is
shown to be right from both ends. `unpack_fields` says what the fields of 64 bits stand for,
so a dyadic number decoded from a double is that double (`toRat_decode`), and bits put
together have the rank that was asked for (`place_ofMagnitude`). In between, sums and
products of dyadic numbers are exact, and `halfEven` rounds as the operations do
(`halfEven_eq`).

Counts are converted correctly as well (`rounds_ofNat`), so the places of a scan, which are
computed from counts with one `fma` each, ascend.
-/

namespace CurvePlot.Double

open Float.Model (Format UnpackedFloat)
open Float.Model.UnpackedFloat (Sign ExtendedMantissa)

/-! ### Taking apart -/

/-- The sign that a flag stands for. -/
def signOf (negative : Bool) : Sign := if negative then .negative else .positive

theorem ofBitVec_unpackSign (bits : BitVec 64) :
    Sign.ofBitVec (@UnpackedFloat.unpackSign Format.binary64 bits) =
      signOf (decide (2 ^ 63 ≤ bits.toNat)) := by
  have hlt : bits.toNat < 2 ^ 64 := bits.isLt
  have hbit : (@UnpackedFloat.unpackSign Format.binary64 bits).toNat = bits.toNat / 2 ^ 63 := by
    show (BitVec.extractLsb 63 63 bits).toNat = _
    rw [BitVec.extractLsb_toNat, Nat.shiftRight_eq_div_pow]
    show bits.toNat / 2 ^ 63 % 2 = bits.toNat / 2 ^ 63
    omega
  have hiff : @UnpackedFloat.unpackSign Format.binary64 bits = 0#1 ↔ ¬2 ^ 63 ≤ bits.toNat := by
    rw [← BitVec.toNat_inj, hbit]
    show bits.toNat / 2 ^ 63 = 0 ↔ _
    omega
  unfold Sign.ofBitVec signOf
  by_cases h : 2 ^ 63 ≤ bits.toNat
  · rw [if_neg (hiff.not.mpr (not_not.mpr h)), if_pos (decide_eq_true h)]
  · rw [if_pos (hiff.mpr h), if_neg (by rw [decide_eq_true_eq]; exact h)]

/-- How 64 bits are taken apart, by the fields of the number that they are. -/
theorem unpack_fields (bits : BitVec 64) : UnpackedFloat.unpack Format.binary64 bits =
    let s : Sign := signOf (decide (2 ^ 63 ≤ bits.toNat))
    let x : ℕ := bits.toNat / 2 ^ 52 % 2 ^ 11
    let y : ℕ := bits.toNat % 2 ^ 52
    if x = 2047 then if y = 0 then .infinity s else .notANumber
    else if x = 0 then if h : y = 0 then .zero s else .finite s y (-1074) (Nat.pos_of_ne_zero h)
    else .finite s (2 ^ 52 + y) (x - 1075) (Nat.lt_of_lt_of_le (by decide) (Nat.le_add_right _ _)) := by
  have hexponent : (@UnpackedFloat.unpackExponent Format.binary64 bits).toNat =
      bits.toNat / 2 ^ 52 % 2 ^ 11 := by
    show (BitVec.extractLsb 62 52 bits).toNat = _
    rw [BitVec.extractLsb_toNat, Nat.shiftRight_eq_div_pow]
  have hmantissa : (@UnpackedFloat.unpackMantissa Format.binary64 bits).toNat =
      bits.toNat % 2 ^ 52 := by
    show (BitVec.extractLsb 51 0 bits).toNat = _
    rw [BitVec.extractLsb_toNat, Nat.shiftRight_zero]
  rw [unpack_eq]
  dsimp only
  rw [ofBitVec_unpackSign, ← hexponent, ← hmantissa]
  generalize @UnpackedFloat.unpackExponent Format.binary64 bits = field
  generalize @UnpackedFloat.unpackMantissa Format.binary64 bits = mantissa
  generalize signOf (decide (2 ^ 63 ≤ bits.toNat)) = s
  have hgreatest : field = -1#11 ↔ field.toNat = 2047 := BitVec.toNat_inj.symm
  have hleast : field = 0#11 ↔ field.toNat = 0 := BitVec.toNat_inj.symm
  have hnone : mantissa = 0#52 ↔ mantissa.toNat = 0 := BitVec.toNat_inj.symm
  by_cases hmax : field.toNat = 2047
  · rw [if_pos (hgreatest.mpr hmax), if_pos hmax]
    exact if_congr hnone rfl rfl
  rw [if_neg (hgreatest.not.mpr hmax), if_neg hmax]
  by_cases hmin : field.toNat = 0
  · rw [if_pos (hleast.mpr hmin), if_pos hmin]
    by_cases hzero : mantissa.toNat = 0
    · rw [dif_pos (hnone.mpr hzero), dif_pos hzero]
    · rw [dif_neg (hnone.not.mpr hzero), dif_neg hzero]
      exact finite_congr rfl rfl (by rw [hmin]; rfl)
  · rw [if_neg (hleast.not.mpr hmin), if_neg hmin]
    exact finite_congr rfl (toNat_append_one mantissa) rfl

/-- Bits below those of what is no number tell the place of what they stand for. -/
theorem place_unpack {bits : BitVec 64} (h : bits.toNat % 2 ^ 63 ≤ beyond) :
    UnpackedFloat.unpack Format.binary64 bits ≠ .notANumber ∧
      place (UnpackedFloat.unpack Format.binary64 bits) =
        unit (signOf (decide (2 ^ 63 ≤ bits.toNat))) * (bits.toNat % 2 ^ 63 : ℕ) := by
  have hbeyond : beyond = 2047 * 2 ^ 52 := rfl
  have hsplit : bits.toNat % 2 ^ 63 =
      bits.toNat / 2 ^ 52 % 2 ^ 11 * 2 ^ 52 + bits.toNat % 2 ^ 52 := by omega
  rw [unpack_fields, hsplit]
  rw [hsplit] at h
  dsimp only
  generalize signOf (decide (2 ^ 63 ≤ bits.toNat)) = s
  have hmantissa : bits.toNat % 2 ^ 52 < 2 ^ 52 := Nat.mod_lt _ (by decide)
  generalize bits.toNat / 2 ^ 52 % 2 ^ 11 = x at h
  generalize bits.toNat % 2 ^ 52 = y at h hmantissa
  by_cases hmax : x = 2047
  · have hnone : y = 0 := by omega
    rw [if_pos hmax, if_pos hnone, hmax, hnone]
    exact ⟨nofun, rfl⟩
  rw [if_neg hmax]
  by_cases hmin : x = 0
  · rw [if_pos hmin, hmin]
    by_cases hzero : y = 0
    · rw [dif_pos hzero, hzero]
      exact ⟨nofun, (mul_zero _).symm⟩
    · rw [dif_neg hzero]
      exact ⟨nofun, rfl⟩
  · -- the implicit bit of the mantissa makes up for the field being one more
    have hrank : rank (2 ^ 52 + y) (x - 1075) = x * 2 ^ 52 + y := by
      unfold rank
      omega
    rw [if_neg hmin]
    exact ⟨nofun, congrArg (fun r : ℕ => unit s * (r : ℤ)) hrank⟩

/-! ### Dyadic numbers -/

/-- The number that a dyadic number is. -/
def Dyadic.toRat (d : Dyadic) : ℚ := unit (signOf d.negative) * (d.mantissa * 2 ^ d.exponent)

theorem toRat_decode {v : Float} (hv : v.isFinite = true) : (decode v).toRat = toRat v := by
  have hfield := exponentField_lt v hv
  have hunpack : v.toModel.unpack = UnpackedFloat.unpack Format.binary64 v.toBits.toBitVec := rfl
  have hbits : v.toBits.toBitVec.toNat = v.toBits.toNat := rfl
  rw [toRat, hunpack, unpack_fields, hbits, decode_eq, isNegative_eq]
  dsimp only
  change exponentField v < 2047 at hfield
  show Dyadic.toRat (if exponentField v = 0 then _ else _) = value (if exponentField v = 2047 then _
    else if exponentField v = 0 then _ else _)
  rw [if_neg (show exponentField v ≠ 2047 by omega)]
  by_cases hleast : exponentField v = 0
  · rw [if_pos hleast, if_pos hleast]
    by_cases hzero : v.toBits.toNat % 2 ^ 52 = 0
    · rw [dif_pos hzero]
      show (unit _ : ℚ) * ((mantissaField v : ℕ) * 2 ^ (-1074 : ℤ)) = 0
      rw [show mantissaField v = 0 from hzero, Nat.cast_zero, zero_mul, mul_zero]
    · rw [dif_neg hzero]
      rfl
  · rw [if_neg hleast, if_neg hleast]
    rfl

theorem toRat_mul (d d' : Dyadic) : (d.mul d').toRat = d.toRat * d'.toRat := by
  have hsign : unit (signOf (d.negative != d'.negative)) =
      unit (signOf d.negative) * unit (signOf d'.negative) := by
    cases d.negative <;> cases d'.negative <;> rfl
  unfold Dyadic.toRat Dyadic.mul
  dsimp only
  rw [hsign, zpow_add₀ (by norm_num)]
  push_cast
  ring

theorem toRat_inUnits (d : Dyadic) {e : ℤ} (he : e ≤ d.exponent) :
    (d.inUnits e : ℚ) * 2 ^ e = d.toRat := by
  rw [inUnits_eq, Dyadic.toRat, mul_two_pow_of_le d.mantissa he]
  cases d.negative
  · show (((d.mantissa * 2 ^ (d.exponent - e).toNat : ℕ) : ℤ) : ℚ) * 2 ^ e = ((1 : ℤ) : ℚ) * _
    push_cast
    ring
  · show ((-((d.mantissa * 2 ^ (d.exponent - e).toNat : ℕ) : ℤ) : ℤ) : ℚ) * 2 ^ e =
      ((-1 : ℤ) : ℚ) * _
    push_cast
    ring

theorem toRat_add (d d' : Dyadic) : (d.add d').toRat = d.toRat + d'.toRat := by
  rw [← toRat_inUnits d (min_le_left d.exponent d'.exponent),
    ← toRat_inUnits d' (min_le_right d.exponent d'.exponent), ← add_mul]
  unfold Dyadic.add
  dsimp only
  rw [← Int.cast_add]
  generalize d.inUnits (min d.exponent d'.exponent) + d'.inUnits (min d.exponent d'.exponent) = n
  generalize min d.exponent d'.exponent = e
  by_cases hzero : n = 0
  · rw [if_pos hzero, hzero, Dyadic.toRat, Nat.cast_zero, Int.cast_zero, zero_mul, mul_zero]
  · rw [if_neg hzero, Dyadic.toRat, ← mul_assoc]
    dsimp only
    have hsign : unit (signOf (decide (n < 0))) * (n.natAbs : ℤ) = n := by
      rcases lt_or_ge n 0 with h | h
      · rw [decide_eq_true h, show unit (signOf true) = -1 from rfl]
        omega
      · rw [decide_eq_false (Int.not_lt.mpr h), show unit (signOf false) = 1 from rfl]
        omega
    have hcast : ((unit (signOf (decide (n < 0))) * (n.natAbs : ℤ) : ℤ) : ℚ) = n :=
      congrArg Int.cast hsign
    rw [Int.cast_mul, Int.cast_natCast] at hcast
    rw [hcast]

/-! ### Putting together -/

/-- The rounding of dyadic numbers knows as much as that of the operations. -/
theorem halfEven_eq (m s : ℕ) : halfEven m s =
    (ExtendedMantissa.ofMantissaAndAccuracy (m / 2 ^ s)
      (UnpackedFloat.accuracyOfFraction (m % 2 ^ s) (2 ^ s))).roundedMantissa := by
  have hrest : m - m / 2 ^ s * 2 ^ s = m % 2 ^ s := by
    have hsplit := Nat.div_add_mod m (2 ^ s)
    rw [Nat.mul_comm] at hsplit
    omega
  unfold halfEven
  dsimp only
  rw [Nat.shiftRight_eq_div_pow, Nat.shiftLeft_eq, Nat.shiftLeft_eq, hrest, Nat.one_mul]
  have hpos : 0 < 2 ^ s := Nat.two_pow_pos s
  generalize m / 2 ^ s = q
  generalize m % 2 ^ s = r
  generalize 2 ^ s = u at hpos
  have hround (h : r ≠ 0) : UnpackedFloat.accuracyOfFraction r u = .inexact (compare (2 * r) u) :=
    if_neg h
  rcases Nat.lt_trichotomy (2 * r) u with h | h | h
  · -- less than half a unit is dropped
    rw [decide_eq_false (by omega), beq_false_of_ne (by omega), Bool.false_and, Bool.false_or,
      if_neg Bool.false_ne_true]
    by_cases hr : r = 0
    · rw [hr]
      rfl
    · rw [hround hr, compare_lt_iff_lt.mpr h]
      rfl
  · rw [hround (by omega), compare_eq_iff_eq.mpr h, decide_eq_false (by omega),
      beq_iff_eq.mpr h.symm, Bool.false_or, Bool.true_and]
    show (if (q % 2 == 1) = true then q + 1 else q) = q + q % 2
    rcases Nat.mod_two_eq_zero_or_one q with hq | hq <;> rw [hq] <;> rfl
  · rw [hround (by omega), compare_gt_iff_gt.mpr h, decide_eq_true h, Bool.true_or, if_pos rfl]
    rfl

theorem nearestEven_halfEven (m s : ℕ) : NearestEven (m / 2 ^ s : ℚ) (halfEven m s) := by
  have hshows := shows_fraction m (Nat.two_pow_pos s)
  rw [Nat.cast_pow, Nat.cast_two] at hshows
  rw [halfEven_eq]
  exact hshows.nearestEven

/-- Bits with a sign in front of them have the place that they say. -/
theorem place_ofMagnitude (negative : Bool) {n : ℕ} (hn : n ≤ beyond) :
    (ofMagnitude negative n).toModel.unpack ≠ .notANumber ∧
      place (ofMagnitude negative n).toModel.unpack = unit (signOf negative) * n := by
  have hbeyond : beyond = 2047 * 2 ^ 52 := rfl
  obtain ⟨bits, hfloat, hsign, hmagnitude⟩ : ∃ bits : UInt64,
      ofMagnitude negative n = Float.ofBits bits ∧
        decide (2 ^ 63 ≤ bits.toNat) = negative ∧ bits.toNat % 2 ^ 63 = n := by
    refine ⟨_, rfl, ?_⟩
    cases negative
    · have hword : (UInt64.ofNat n).toNat = n := UInt64.toNat_ofNat_of_lt' (by
        rw [show UInt64.size = 2 ^ 64 from rfl]
        omega)
      rw [if_neg Bool.false_ne_true, hword]
      exact ⟨decide_eq_false (by omega), by omega⟩
    · have hword : (UInt64.ofNat (n + 0x8000000000000000)).toNat = n + 0x8000000000000000 :=
        UInt64.toNat_ofNat_of_lt' (by
          rw [show UInt64.size = 2 ^ 64 from rfl]
          omega)
      rw [if_pos rfl, hword]
      exact ⟨decide_eq_true (by omega), by omega⟩
  have hbound : bits.toBitVec.toNat % 2 ^ 63 ≤ beyond := hmagnitude.trans_le hn
  obtain ⟨hnumber, hplace⟩ := place_unpack hbound
  rw [show bits.toBitVec.toNat = bits.toNat from rfl, hsign, hmagnitude] at hplace
  have hunpack : (Float.ofBits bits).toModel.unpack =
      UnpackedFloat.unpack Format.binary64 bits.toBitVec :=
    (packed_unpack bits.toBitVec).unpack_pack hnumber
  rw [hfloat, hunpack]
  exact ⟨hnumber, hplace⟩

/-- **A dyadic number is rounded correctly.** -/
theorem rounds_nearest (d : Dyadic) : Rounds d.toRat (nearest d).toModel.unpack := by
  obtain ⟨negative, m, e⟩ := d
  by_cases hm : m = 0
  · have hzero : ∃ s, (nearest ⟨negative, m, e⟩).toModel.unpack = .zero s := by
      rw [hm, nearest_zero]
      cases negative
      · exact ⟨.positive, rfl⟩
      · exact ⟨.negative, rfl⟩
    obtain ⟨s, hs⟩ := hzero
    have hvalue : Dyadic.toRat ⟨negative, m, e⟩ = 0 := by
      rw [Dyadic.toRat, hm, Nat.cast_zero, zero_mul, mul_zero]
    rw [hs, hvalue]
    exact .self (u := .zero s) trivial rfl
  · let last : ℤ := max (e + m.log2 - 52) (-1074)
    let kept : ℕ := if last ≤ e then m <<< (e - last).toNat else halfEven m (last - e).toNat
    have hnearest : nearest ⟨negative, m, e⟩ =
        ofMagnitude negative (min (rank kept last) beyond) := by
      unfold nearest
      dsimp only
      rw [if_neg hm, Nat.shiftLeft_eq]
      rfl
    have hlast : last = keptExponent m e := by
      show max (e + m.log2 - 52) (-1074) = _
      unfold keptExponent
      omega
    have hkept : Kept (m * 2 ^ e : ℚ) last := hlast ▸ kept_keptExponent le_rfl (lt_add_one _) (.inl hm)
    have heven : NearestEven (m * 2 ^ e / 2 ^ last : ℚ) kept := by
      show NearestEven _ (if last ≤ e then _ else _)
      split
      · next hle =>
        -- all the bits are kept
        rw [mul_two_pow_of_le m hle, mul_div_cancel_right₀ _ (by positivity), Nat.shiftLeft_eq]
        exact_mod_cast NearestEven.natCast (m * 2 ^ (e - last).toNat)
      · next hlt =>
        have hpow : (2 : ℚ) ^ last = 2 ^ e * 2 ^ (last - e).toNat := by
          rw [← zpow_natCast, ← zpow_add₀ (by norm_num)]
          congr 1
          omega
        rw [hpow, div_mul_eq_div_div, mul_div_cancel_right₀ _ (by positivity)]
        exact nearestEven_halfEven m _
    obtain ⟨hnumber, hplace⟩ := place_ofMagnitude negative (min_le_right (rank kept last) beyond)
    rw [hnearest]
    exact ⟨hnumber, _, _, _, by positivity, rfl, ⟨last, kept, hkept, heven, rfl⟩, hplace⟩

theorem rounds_fma {a b c : Float} (ha : a.isFinite = true) (hb : b.isFinite = true)
    (hc : c.isFinite = true) :
    Rounds (toRat a * toRat b + toRat c) (fma a b c).toModel.unpack := by
  have hfma : fma a b c = nearest (((decode a).mul (decode b)).add (decode c)) := by
    unfold fma
    rw [ha, hb, hc]
    rfl
  rw [hfma, ← toRat_decode ha, ← toRat_decode hb, ← toRat_decode hc, ← toRat_mul, ← toRat_add]
  exact rounds_nearest _

/-- The factors of a finite result are finite. -/
theorem isFinite_of_fma {a b c : Float} (h : (fma a b c).isFinite = true) :
    a.isFinite = true ∧ b.isFinite = true := by
  rw [← Bool.and_eq_true]
  by_contra hnot
  have hfma : fma a b c = a * b + c := by
    unfold fma
    rw [Bool.eq_false_iff.mpr hnot]
    rfl
  rw [hfma] at h
  exact hnot ((Bool.and_eq_true _ _).mpr (isFinite_of_mul (isFinite_of_add h).1))

/-! ### Counts -/

/-- **A count is rounded correctly.** -/
theorem rounds_ofNat (n : ℕ) : Rounds n (Float.ofNat n).toModel.unpack := by
  unfold Float.ofNat
  show Rounds n (Float.ofScientific n false 0).toModel.unpack
  unfold Float.ofScientific
  split
  · -- a count that is no longer than a mantissa is converted as a word and multiplied by one
    next hn =>
    let u : UnpackedFloat := repack (UnpackedFloat.ofNat Format.binary64 n)
    have hu : Rounds n u := by
      have hround := rounds_normalize n 0 .positive
      rw [zpow_zero, mul_one, Int.cast_natCast] at hround
      exact hround
    have hlt : n < 2 ^ 53 := hn.1
    have hfin : u.isFinite = true := by
      have hbound : Packed (.finite .positive (2 ^ 52) 1 (by decide)) :=
        ⟨⟨by decide, by decide, by decide, .inl (Nat.le_refl _)⟩, by decide⟩
      refine hu.isFinite (Nat.cast_nonneg n) hbound rfl ?_
      have hle : (n : ℚ) ≤ 2 ^ 53 := by exact_mod_cast hlt.le
      rw [value_two_pow]
      exact_mod_cast hle
    have hone : Packed (.finite .positive (2 ^ 52) (-52) (by decide)) :=
      ⟨⟨by decide, by decide, by decide, .inl (Nat.le_refl _)⟩, by decide⟩
    have hvalue : value (.finite .positive (2 ^ 52) (-52) (by decide)) = 1 := value_two_pow _
    have hword : n.toUInt64.toNat = n := UInt64.toNat_ofNat_of_lt' (by
      rw [show UInt64.size = 2 ^ 64 from rfl]
      omega)
    have hfloat : n.toUInt64.toFloat.toModel.unpack = u := by
      show repack (UnpackedFloat.ofNat Format.binary64 n.toUInt64.toNat) = _
      rw [hword]
    have hmul := rounds_mul (packed_unpack _) hone hfin rfl
    rw [hvalue, mul_one] at hmul
    show Rounds n (repack (UnpackedFloat.mul Format.binary64 n.toUInt64.toFloat.toModel.unpack
      (Float.ofBits 0x3FF0000000000000).toModel.unpack))
    rw [hfloat, unpack_one]
    exact hu.trans (packed_unpack _) hfin hmul
  · -- a longer one is shifted and rounded
    next hn =>
    have hne : n ≠ 0 := by
      rintro rfl
      exact hn (by decide)
    have hvalue : (n : ℚ) = unit .positive * ((n * 2 ^ 53 : ℕ) * 2 ^ (0 - (53 : ℕ) : ℤ)) := by
      have hpow : (2 : ℚ) ^ 53 * 2 ^ (0 - (53 : ℕ) : ℤ) = 1 := by norm_num
      rw [show unit .positive = 1 from rfl, Int.cast_one, one_mul, Nat.cast_mul, Nat.cast_pow,
        Nat.cast_two, mul_assoc, hpow, mul_one]
    show Rounds n (repack (UnpackedFloat.ofScientific Format.binary64 n 0))
    rw [ofScientific_eq hne, hvalue]
    exact rounds_round _ (.exact rfl) (le_keptExponent_ofScientific hne)
      (.inl (Nat.mul_ne_zero hne (by decide)))

theorem isFinite_ofNat {n : ℕ} (hn : n < 2 ^ 64) : (Float.ofNat n).isFinite = true := by
  have hbound : Packed (.finite .positive (2 ^ 52) 12 (by decide)) :=
    ⟨⟨by decide, by decide, by decide, .inl (Nat.le_refl _)⟩, by decide⟩
  refine (rounds_ofNat n).isFinite (Nat.cast_nonneg n) hbound rfl ?_
  have hle : (n : ℚ) ≤ 2 ^ 64 := by exact_mod_cast hn.le
  rw [value_two_pow]
  exact_mod_cast hle

end CurvePlot.Double
