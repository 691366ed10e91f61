import CurvePlot.Double.Fused
import CurvePlot.Proofs.Double.Order
import CurvePlot.Proofs.Double.Rounding
/-!
# Adding nothing to a double

`fma 0 b c` is `c`, if `b` is finite: the product is a zero, and the exact sum is `c` again,
only counted in smaller units. What has to be seen is that `nearest` puts together what
`decode` took apart. The bits of a double are its sign, and below it the number
`(e + 1074) · 2 ^ 52 + m` for a magnitude of `m · 2 ^ e` (`toNat_toBits`), which is what
`nearest` computes whatever the units are (`nearest_scaled`).

Only a zero may come back with another sign. So all that follows is that the difference of
`c` and `fma 0 b c` is a zero, unless `c` is not finite and it is undefined
(`sub_fma_zero`), and that it still counts as no step when it is divided and rounded
(`round_sub_fma_zero`).
-/

namespace CurvePlot.Double

open Float.Model (Format UnpackedFloat)
open Float.Model.UnpackedFloat (Sign)

/-! ### The fields of 64 bits -/

section Fields

variable (v : Float)

/-- The field of the exponent. -/
def exponentField : Nat := v.toBits.toNat / 2 ^ 52 % 2 ^ 11

/-- The field of the mantissa. -/
def mantissaField : Nat := v.toBits.toNat % 2 ^ 52

theorem toNat_field : ((v.toBits >>> 52) &&& 0x7FF).toNat = exponentField v := by
  rw [UInt64.toNat_and, UInt64.toNat_shiftRight]
  show v.toBits.toNat >>> 52 &&& (2 ^ 11 - 1) = _
  rw [Nat.and_two_pow_sub_one_eq_mod, Nat.shiftRight_eq_div_pow]
  rfl

theorem toNat_fraction : (v.toBits &&& 0xFFFFFFFFFFFFF).toNat = mantissaField v := by
  rw [UInt64.toNat_and]
  exact Nat.and_two_pow_sub_one_eq_mod v.toBits.toNat 52

theorem isNegative_eq : isNegative v = decide (2 ^ 63 ≤ v.toBits.toNat) := by
  have hlt : v.toBits.toNat < 2 ^ 64 := v.toBits.toNat_lt
  have hshift : (v.toBits >>> 63).toNat = v.toBits.toNat / 2 ^ 63 := by
    rw [UInt64.toNat_shiftRight]
    exact Nat.shiftRight_eq_div_pow _ _
  unfold isNegative
  rw [Bool.eq_iff_iff, beq_iff_eq, decide_eq_true_iff, ← UInt64.toNat_inj, hshift]
  show v.toBits.toNat / 2 ^ 63 = 1 ↔ _
  omega

/-- How a double is decoded from its fields. -/
theorem decode_eq : decode v =
    if exponentField v = 0 then ⟨isNegative v, mantissaField v, -1074⟩
    else ⟨isNegative v, 2 ^ 52 + mantissaField v, exponentField v - 1075⟩ := by
  have hor : ((v.toBits &&& 0xFFFFFFFFFFFFF) ||| 0x10000000000000).toNat =
      2 ^ 52 + mantissaField v := by
    rw [UInt64.toNat_or, toNat_fraction, Nat.or_comm]
    exact (Nat.shiftLeft_add_eq_or_of_lt (Nat.mod_lt _ (Nat.two_pow_pos 52)) 1).symm
  have hzero : ((v.toBits >>> 52) &&& 0x7FF) = 0 ↔ exponentField v = 0 := by
    rw [← UInt64.toNat_inj, toNat_field]
    rfl
  unfold decode
  dsimp only
  rw [toNat_fraction, toNat_field, hor]
  refine if_congr ?_ rfl rfl
  rw [beq_iff_eq]
  exact hzero

/-- The exponent field of a finite double is not the greatest. -/
theorem exponentField_lt (h : v.isFinite = true) : exponentField v < 2047 := by
  have hlt : exponentField v < 2048 := Nat.mod_lt _ (by decide)
  have hfield : (@UnpackedFloat.unpackExponent Format.binary64 v.toBits.toBitVec).toNat =
      exponentField v := by
    show (BitVec.extractLsb 62 52 v.toBits.toBitVec).toNat = _
    rw [BitVec.extractLsb_toNat, Nat.shiftRight_eq_div_pow]
    rfl
  by_contra hmax
  have hall : @UnpackedFloat.unpackExponent Format.binary64 v.toBits.toBitVec = -1#11 := by
    refine BitVec.eq_of_toNat_eq ?_
    rw [hfield]
    show exponentField v = 2047
    omega
  have hunpack : v.toModel.unpack.isFinite = true := h
  have hnot : v.toModel.unpack.isFinite = false := by
    show (UnpackedFloat.unpack Format.binary64 v.toBits.toBitVec).isFinite = false
    rw [unpack_eq]
    dsimp only
    rw [if_pos hall]
    split <;> rfl
  rw [hnot] at hunpack
  cases hunpack

/-- **The bits of a double,** from its dyadic form. -/
theorem toNat_toBits : v.toBits.toNat = (if (decode v).negative then 2 ^ 63 else 0) +
    (((decode v).exponent + 1074).toNat * 2 ^ 52 + (decode v).mantissa) := by
  have hlt : v.toBits.toNat < 2 ^ 64 := v.toBits.toNat_lt
  have hsplit : v.toBits.toNat = v.toBits.toNat / 2 ^ 63 * 2 ^ 63 +
      (exponentField v * 2 ^ 52 + mantissaField v) := by
    unfold exponentField mantissaField
    omega
  have hsign : (if isNegative v = true then 2 ^ 63 else 0) = v.toBits.toNat / 2 ^ 63 * 2 ^ 63 := by
    rw [isNegative_eq]
    split <;> next h =>
      rw [decide_eq_true_iff] at h
      omega
  rw [decode_eq]
  split
  · -- the least exponent has no implicit bit, and its field is zero
    next h =>
    refine hsplit.trans (congrArg₂ _ hsign.symm ?_)
    rw [h]
    rfl
  · -- the implicit bit of the mantissa makes up for the field being one more
    next h =>
    refine hsplit.trans (congrArg₂ _ hsign.symm ?_)
    dsimp only
    have hunit : ((exponentField v : Int) - 1075 + 1074).toNat = exponentField v - 1 := by omega
    rw [hunit]
    omega

/-- **The dyadic form of a finite double is canonical,** unless it is a zero. -/
theorem decode_canonical (h : v.isFinite = true) (hne : (decode v).mantissa ≠ 0) :
    Canonical (decode v).mantissa (decode v).exponent ∧ (decode v).exponent ≤ 971 := by
  have hfield := exponentField_lt v h
  have hmantissa : mantissaField v < 2 ^ 52 := Nat.mod_lt _ (Nat.two_pow_pos 52)
  rw [decode_eq] at hne ⊢
  split at hne
  · next hzero =>
    rw [if_pos hzero]
    exact ⟨⟨Nat.pos_of_ne_zero hne, by dsimp only; omega, Int.le_refl _, .inr rfl⟩,
      by dsimp only; decide⟩
  · next hpos =>
    rw [if_neg hpos]
    refine ⟨⟨?_, ?_, ?_, .inl ?_⟩, ?_⟩
    all_goals
      dsimp only
      omega

end Fields

/-! ### Putting together -/

/-- Clear bits are cut off without a trace. -/
theorem halfEven_shift (m k : Nat) : halfEven (m * 2 ^ k) k = m := by
  have hcut : (m * 2 ^ k) >>> k = m := by
    rw [Nat.shiftRight_eq_div_pow, Nat.mul_div_cancel _ (Nat.two_pow_pos k)]
  have hrest : 2 * (m * 2 ^ k - m <<< k) = 0 := by
    rw [Nat.shiftLeft_eq, Nat.sub_self]
  have hunit : 1 <<< k = 2 ^ k := by rw [Nat.shiftLeft_eq, Nat.one_mul]
  unfold halfEven
  dsimp only
  rw [hcut, hrest, hunit, if_neg]
  simp

/-- **A canonical number is put together as it is,** however small the units are in which it
is counted. -/
theorem nearest_scaled {m : Nat} {e : Int} (hc : Canonical m e) (he : e ≤ 971) (negative : Bool)
    (k : Nat) : nearest ⟨negative, m * 2 ^ k, e - k⟩ =
      ofMagnitude negative ((e + 1074).toNat * 2 ^ 52 + m) := by
  have hpos : m * 2 ^ k ≠ 0 := Nat.mul_ne_zero hc.pos.ne' (Nat.two_pow_pos k).ne'
  have hge := hc.ge
  have hlt := hc.lt
  -- the last bit that is kept is the last one that the canonical number has
  have hlast : max (e - k + (m * 2 ^ k).log2 - 52) (-1074) = e := by
    have hkept : keptExponent m e = e := hc.keptExponent_eq
    unfold keptExponent at hkept
    rw [log2_mul_two_pow hc.pos.ne']
    omega
  have hkept : (if e ≤ e - k then (m * 2 ^ k) <<< (e - k - e).toNat
      else halfEven (m * 2 ^ k) (e - (e - k)).toNat) = m := by
    split
    · next hle =>
      obtain rfl : k = 0 := by omega
      have hnone : (e - ((0 : Nat) : Int) - e).toNat = 0 := by omega
      rw [hnone, Nat.pow_zero, Nat.mul_one, Nat.shiftLeft_zero]
    · have hcut : (e - (e - k)).toNat = k := by omega
      rw [hcut, halfEven_shift]
  unfold nearest
  dsimp only
  rw [if_neg hpos, hlast, hkept, Nat.shiftLeft_eq, Nat.min_eq_left]
  omega

/-- **What was taken apart is put together again.** -/
theorem ofMagnitude_decode (v : Float) : ofMagnitude (decode v).negative
    (((decode v).exponent + 1074).toNat * 2 ^ 52 + (decode v).mantissa) =
      Float.ofBits v.toBits := by
  have hbits := toNat_toBits v
  have hmagnitude : (if (decode v).negative = true then
      ((decode v).exponent + 1074).toNat * 2 ^ 52 + (decode v).mantissa + 0x8000000000000000
      else ((decode v).exponent + 1074).toNat * 2 ^ 52 + (decode v).mantissa) =
        v.toBits.toNat := by
    rw [hbits]
    split
    · exact Nat.add_comm _ _
    · exact (Nat.zero_add _).symm
  unfold ofMagnitude
  rw [hmagnitude, UInt64.ofNat_toNat]

/-- The bits of a finite double stand for it. -/
theorem unpack_ofBits_toBits {v : Float} (hv : v.isFinite = true) :
    (Float.ofBits v.toBits).toModel.unpack = v.toModel.unpack := by
  have hmodel : v.toModel.unpack.isFinite = true := hv
  show UnpackedFloat.unpack Format.binary64
    (UnpackedFloat.pack Format.binary64 v.toModel.unpack) = _
  cases hu : v.toModel.unpack with
  | notANumber | infinity =>
    rw [hu] at hmodel
    cases hmodel
  | zero s => exact unpack_pack_zero s
  | finite s m e h =>
    obtain ⟨hc, he⟩ := canonical_of_unpack hu
    exact unpack_pack hc he

/-! ### Adding a product of zero -/

theorem inUnits_eq (d : Dyadic) (e : Int) : d.inUnits e =
    if d.negative then -((d.mantissa * 2 ^ (d.exponent - e).toNat : Nat) : Int)
    else ((d.mantissa * 2 ^ (d.exponent - e).toNat : Nat) : Int) := by
  unfold Dyadic.inUnits
  rw [← Nat.shiftLeft_eq]

/-- The exact sum of a zero and a number is the number, counted in smaller units. Only the
sign of a zero may change. -/
theorem add_zero_left (negative : Bool) (e : Int) (d : Dyadic) :
    ∃ (sign : Bool) (k : Nat), Dyadic.add ⟨negative, 0, e⟩ d =
        ⟨sign, d.mantissa * 2 ^ k, d.exponent - k⟩ ∧ (d.mantissa ≠ 0 → sign = d.negative) := by
  have hzero : Dyadic.inUnits ⟨negative, 0, e⟩ (min e d.exponent) = 0 := by
    rw [inUnits_eq, Nat.zero_mul]
    split <;> rfl
  obtain ⟨k, hk⟩ : ∃ k : Nat, min e d.exponent = d.exponent - k :=
    ⟨(d.exponent - min e d.exponent).toNat, by omega⟩
  have hunits : d.inUnits (min e d.exponent) =
      if d.negative then -((d.mantissa * 2 ^ k : Nat) : Int)
      else ((d.mantissa * 2 ^ k : Nat) : Int) := by
    rw [inUnits_eq, hk, Int.sub_sub_self, Int.toNat_natCast]
  unfold Dyadic.add
  dsimp only
  rw [hzero, Int.zero_add, hunits, hk]
  by_cases hm : d.mantissa = 0
  · refine ⟨negative && d.negative, k, ?_, fun hne => absurd hm hne⟩
    rw [hm, Nat.zero_mul, if_pos (by split <;> rfl)]
  · have hpos : 0 < d.mantissa * 2 ^ k :=
      Nat.mul_pos (Nat.pos_of_ne_zero hm) (Nat.two_pow_pos k)
    refine ⟨d.negative, k, ?_, fun _ => rfl⟩
    generalize d.mantissa * 2 ^ k = m at hpos
    cases d.negative
    · rw [if_neg Bool.false_ne_true, if_neg (by omega), Int.natAbs_natCast,
        decide_eq_false (by omega)]
    · rw [if_pos rfl, if_neg (by omega), Int.natAbs_neg, Int.natAbs_natCast,
        decide_eq_true (by omega)]

theorem nearest_zero (negative : Bool) (e : Int) :
    nearest ⟨negative, 0, e⟩ = signedZero negative :=
  if_pos rfl

/-- A double without a mantissa is a zero. -/
theorem unpack_of_mantissa_eq_zero {v : Float} (h : (decode v).mantissa = 0) :
    ∃ s, v.toModel.unpack = .zero s := by
  have hleast : (decode v).exponent = -1074 := by
    rw [decode_eq] at h ⊢
    split
    · rfl
    · next hpos =>
      rw [if_neg hpos] at h
      dsimp only at h
      omega
  have hbits := toNat_toBits v
  rw [h, hleast] at hbits
  have hzero : v.toBits = 0x8000000000000000 ∨ v.toBits = 0 := by
    rw [← UInt64.toNat_inj, ← UInt64.toNat_inj, hbits]
    split
    · exact .inl rfl
    · exact .inr rfl
  show ∃ s, UnpackedFloat.unpack Format.binary64 v.toBits.toBitVec = .zero s
  rcases hzero with hzero | hzero
  · exact ⟨.negative, by rw [hzero]; rfl⟩
  · exact ⟨.positive, by rw [hzero]; rfl⟩

/-- **A product of zero adds nothing,** except that a zero may lose its sign. -/
theorem fma_zero {b c : Float} (hb : b.isFinite = true) (hc : c.isFinite = true) :
    (c == fma (Float.ofInt 0) b c) = true ∧ (fma (Float.ofInt 0) b c).isFinite = true := by
  have hdecode : decode (Float.ofInt 0) = ⟨false, 0, -1074⟩ := by decide +kernel
  have hfinite : (Float.ofInt 0).isFinite = true := by decide +kernel
  have hfma : fma (Float.ofInt 0) b c =
      nearest (((decode (Float.ofInt 0)).mul (decode b)).add (decode c)) := by
    unfold fma
    rw [hfinite, hb, hc]
    rfl
  rw [hfma, hdecode, Dyadic.mul]
  dsimp only
  rw [Nat.zero_mul]
  obtain ⟨sign, k, hadd, hsign⟩ := add_zero_left (false != (decode b).negative)
    (-1074 + (decode b).exponent) (decode c)
  rw [hadd]
  -- a zero may change its sign, and then its bits, so it is compared as a number
  by_cases hm : (decode c).mantissa = 0
  · rw [hm, Nat.zero_mul, nearest_zero]
    obtain ⟨s, hs⟩ := unpack_of_mantissa_eq_zero hm
    rw [beq_iff, hs]
    cases sign
    · exact ⟨by cases s <;> rfl, rfl⟩
    · exact ⟨by cases s <;> rfl, rfl⟩
  · obtain ⟨hcanonical, he⟩ := decode_canonical c hc hm
    have hsame := unpack_ofBits_toBits hc
    rw [hsign hm, nearest_scaled hcanonical he, ofMagnitude_decode]
    refine ⟨?_, ?_⟩
    · rw [beq_iff, hsame, ← beq_iff]
      exact beq_self_of_isFinite hc
    · show (Float.ofBits c.toBits).toModel.unpack.isFinite = true
      rw [hsame]
      exact hc

/-- **What is left of a number when it is taken from itself** is a zero, or undefined if the
number was not finite. -/
theorem sub_fma_zero {b : Float} (hb : b.isFinite = true) (c : Float) :
    (c - fma (Float.ofInt 0) b c).toModel.unpack = .notANumber ∨
      ∃ s, (c - fma (Float.ofInt 0) b c).toModel.unpack = .zero s := by
  by_cases hc : c.isFinite = true
  · obtain ⟨heq, hfinite⟩ := fma_zero hb hc
    exact .inr (unpack_sub_of_beq hfinite heq)
  · have hfma : fma (Float.ofInt 0) b c = c := by
      have hfinite : (Float.ofInt 0).isFinite = true := by decide +kernel
      unfold fma
      rw [hfinite, hb, Bool.eq_false_iff.mpr hc]
      rfl
    -- an infinity taken from itself is undefined, and so is the undefined
    rw [hfma]
    refine .inl ?_
    have hmodel : ¬c.toModel.unpack.isFinite = true := hc
    show UnpackedFloat.unpack Format.binary64 (UnpackedFloat.pack Format.binary64
      (UnpackedFloat.sub Format.binary64 c.toModel.unpack c.toModel.unpack)) = _
    cases hu : c.toModel.unpack with
    | notANumber => rfl
    | infinity s => cases s <;> rfl
    | zero | finite =>
      rw [hu] at hmodel
      exact absurd rfl hmodel

/-- **No step leads from a number to itself:** the difference, counted in steps and rounded,
is zero steps or undefined. -/
theorem round_sub_fma_zero {b : Float} (hb : b.isFinite = true) (hpos : ¬b ≤ 0.0) (c : Float) :
    (round ((c - fma (Float.ofInt 0) b c) / b)).isFinite = false ∨
      toInt (round ((c - fma (Float.ofInt 0) b c) / b)) = 0 := by
  generalize hd : c - fma (Float.ofInt 0) b c = d
  have hcases := sub_fma_zero hb c
  rw [hd] at hcases
  have hdiv : d / b = Float.ofModel
      (.pack (UnpackedFloat.div Format.binary64 d.toModel.unpack b.toModel.unpack)) := rfl
  have hmodel : b.toModel.unpack.isFinite = true := hb
  rw [hdiv]
  rcases hcases with hd | ⟨s, hd⟩
  · have hundefined : UnpackedFloat.div Format.binary64 .notANumber b.toModel.unpack =
        .notANumber := by
      cases b.toModel.unpack <;> rfl
    rw [hd, hundefined]
    exact .inl (by decide +kernel)
  · rw [hd]
    rw [le_iff] at hpos
    cases hu : b.toModel.unpack with
    | notANumber | infinity =>
      rw [hu] at hmodel
      cases hmodel
    | zero s' =>
      rw [hu] at hpos
      exact absurd rfl hpos
    | finite s' m e h =>
      show _ ∨ toInt (round (Float.ofModel (.pack (.zero (s / s'))))) = 0
      cases s / s' <;> exact .inr (by decide +kernel)

end CurvePlot.Double
