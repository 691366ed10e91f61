import CurvePlot.Double.Whole
import Mathlib.Tactic.Ring
/-!
# Doubles as mantissas and exponents

The logic knows a double as 64 bits, and computes with it by taking it apart into sign,
mantissa and exponent and putting the result together again. What comes out of 64 bits
is in canonical form (`Canonical`): the mantissa has all of its 53 bits unless the
exponent is the least. Canonical numbers are taken apart as what they were put
together from (`unpack_pack`), and are ordered by exponent first and mantissa second
(`Canonical.compare_isLE`).
-/

namespace CurvePlot.Double

open Float.Model (Format UnpackedFloat)
open Float.Model.UnpackedFloat (Sign)

/-- The number `m · 2 ^ e` as a double keeps it. -/
structure Canonical (m : Nat) (e : Int) : Prop where
  /-- It is not zero. -/
  pos : 0 < m
  /-- The mantissa has no more than 53 bits. -/
  lt : m < 2 ^ 53
  /-- The exponent is not below the least. -/
  ge : -1074 ≤ e
  /-- The mantissa has all its bits unless the exponent is the least. -/
  full : 2 ^ 52 ≤ m ∨ e = -1074

/-- The bit before the binary point is put in front of the 52 that are kept. -/
theorem toNat_append_one (m : BitVec 52) : (1#1 ++ m).toNat = 2 ^ 52 + m.toNat := by
  have hm : m.toNat < 2 ^ 52 := m.isLt
  rw [BitVec.toNat_append, ← Nat.shiftLeft_add_eq_or_of_lt hm]
  rfl

theorem toNat_append_one_pos (m : BitVec 52) : 0 < (1#1 ++ m).toNat := by
  rw [toNat_append_one]
  omega

theorem toNat_pos {m : BitVec 52} (h : m ≠ 0#52) : 0 < m.toNat :=
  Nat.pos_of_ne_zero fun hzero => h (BitVec.eq_of_toNat_eq hzero)

/-- A finite number is its sign, its mantissa and its exponent. -/
theorem finite_congr {s s' : Sign} {m m' : Nat} {e e' : Int} {h : 0 < m} {h' : 0 < m'}
    (hs : s = s') (hm : m = m') (he : e = e') :
    UnpackedFloat.finite s m e h = UnpackedFloat.finite s' m' e' h' := by
  subst hs hm he
  rfl

/-- How 64 bits are taken apart. -/
theorem unpack_eq (bits : BitVec 64) : UnpackedFloat.unpack Format.binary64 bits =
    let s : Sign := .ofBitVec (@UnpackedFloat.unpackSign Format.binary64 bits)
    let x : BitVec 11 := @UnpackedFloat.unpackExponent Format.binary64 bits
    let y : BitVec 52 := @UnpackedFloat.unpackMantissa Format.binary64 bits
    if x = -1#11 then if y = 0#52 then .infinity s else .notANumber
    else if x = 0#11 then
      if h : y = 0#52 then .zero s
      else .finite s y.toNat (x.toNat - 1075 + 1) (toNat_pos h)
    else .finite s (1#1 ++ y).toNat (x.toNat - 1075) (toNat_append_one_pos y) :=
  rfl

/-- What is taken apart is canonical and in range. -/
theorem canonical_of_unpack {bits : BitVec 64} {s : Sign} {m : Nat} {e : Int} {h : 0 < m}
    (heq : UnpackedFloat.unpack Format.binary64 bits = .finite s m e h) :
    Canonical m e ∧ e ≤ 971 := by
  let field : BitVec 11 := @UnpackedFloat.unpackExponent Format.binary64 bits
  let mantissa : BitVec 52 := @UnpackedFloat.unpackMantissa Format.binary64 bits
  have hmantissa : mantissa.toNat < 2 ^ 52 := mantissa.isLt
  rw [unpack_eq] at heq
  dsimp only at heq
  by_cases hexp : field = -1#11
  · -- the greatest exponent stands for infinities and for what is no number
    rw [if_pos hexp] at heq
    by_cases hzero : mantissa = 0#52
    · rw [if_pos hzero] at heq
      cases heq
    · rw [if_neg hzero] at heq
      cases heq
  rw [if_neg hexp] at heq
  have hfield : field.toNat < 2047 := by
    have hlt : field.toNat < 2048 := field.isLt
    have hne : field.toNat ≠ 2047 := fun hmax => hexp (BitVec.eq_of_toNat_eq hmax)
    omega
  by_cases hleast : field = 0#11
  · -- the least exponent has no implicit bit
    have hnone : field.toNat = 0 := congrArg BitVec.toNat hleast
    rw [if_pos hleast] at heq
    by_cases hzero : mantissa = 0#52
    · rw [dif_pos hzero] at heq
      cases heq
    · rw [dif_neg hzero] at heq
      obtain ⟨-, rfl, rfl⟩ := UnpackedFloat.finite.inj heq
      show Canonical mantissa.toNat (field.toNat - 1075 + 1) ∧ ((field.toNat : Int) - 1075 + 1) ≤ 971
      rw [hnone]
      exact ⟨⟨h, Nat.lt_trans hmantissa (by decide), by decide, .inr (by decide)⟩, by decide⟩
  · have hpos : field.toNat ≠ 0 := fun hmin => hleast (BitVec.eq_of_toNat_eq hmin)
    rw [if_neg hleast] at heq
    obtain ⟨-, rfl, rfl⟩ := UnpackedFloat.finite.inj heq
    show Canonical (1#1 ++ mantissa).toNat (field.toNat - 1075) ∧ ((field.toNat : Int) - 1075) ≤ 971
    rw [toNat_append_one]
    refine ⟨⟨?_, ?_, ?_, .inl ?_⟩, ?_⟩
    all_goals omega

section Components

variable (s : Sign) (x : BitVec 11) (y : BitVec 52)

theorem unpackSign_packComponents : Sign.ofBitVec (@UnpackedFloat.unpackSign Format.binary64
    (UnpackedFloat.packComponents Format.binary64 s x y)) = s := by
  have hbit : @UnpackedFloat.unpackSign Format.binary64
      (UnpackedFloat.packComponents Format.binary64 s x y) = s.toBitVec := by
    refine BitVec.eq_of_getLsbD_eq fun i hi => ?_
    obtain rfl : i = 0 := by omega
    show (BitVec.extractLsb 63 63 (s.toBitVec ++ x ++ y)).getLsbD 0 = s.toBitVec.getLsbD 0
    rw [BitVec.getLsbD_extractLsb, BitVec.getLsbD_append, BitVec.getLsbD_append]
    rfl
  rw [hbit]
  cases s <;> rfl

theorem unpackExponent_components : @UnpackedFloat.unpackExponent Format.binary64
    (UnpackedFloat.packComponents Format.binary64 s x y) = x :=
  UnpackedFloat.unpackExponent_packComponents

theorem unpackMantissa_components : @UnpackedFloat.unpackMantissa Format.binary64
    (UnpackedFloat.packComponents Format.binary64 s x y) = y :=
  UnpackedFloat.unpackMantissa_packComponents

variable {x y}

/-- Bits with an exponent between the least and the greatest have an implicit bit. -/
theorem unpack_normal {m : Nat} {e : Int} {h : 0 < m} (hmax : x ≠ -1#11) (hmin : x ≠ 0#11)
    (hm : m = 2 ^ 52 + y.toNat) (he : e = x.toNat - 1075) :
    UnpackedFloat.unpack Format.binary64 (UnpackedFloat.packComponents Format.binary64 s x y) =
      .finite s m e h := by
  have hx := unpackExponent_components s x y
  have hy := unpackMantissa_components s x y
  rw [unpack_eq]
  dsimp only
  rw [if_neg (hx.trans_ne hmax), if_neg (hx.trans_ne hmin)]
  refine finite_congr (unpackSign_packComponents s x y) ?_ ?_
  · rw [hy, toNat_append_one, hm]
  · rw [hx, he]

/-- Bits with the least exponent have none. -/
theorem unpack_subnormal {m : Nat} {h : 0 < m} (hm : m = y.toNat) :
    UnpackedFloat.unpack Format.binary64
      (UnpackedFloat.packComponents Format.binary64 s 0#11 y) = .finite s m (-1074) h := by
  have hx := unpackExponent_components s 0#11 y
  have hy := unpackMantissa_components s 0#11 y
  have hne : y ≠ 0#52 := by
    rintro rfl
    exact absurd hm (Nat.pos_iff_ne_zero.mp h)
  rw [unpack_eq]
  dsimp only
  rw [if_neg (hx.trans_ne (by decide)), if_pos hx, dif_neg (hy.trans_ne hne)]
  refine finite_congr (unpackSign_packComponents s 0#11 y) ?_ ?_
  · rw [hy, hm]
  · rw [hx]
    rfl

end Components

theorem unpack_pack_zero (s : Sign) : UnpackedFloat.unpack Format.binary64
    (UnpackedFloat.pack Format.binary64 (.zero s)) = .zero s := by
  cases s <;> rfl

/-- How a finite number is put together. -/
theorem pack_finite (s : Sign) (m : Nat) (e : Int) (h : 0 < m) :
    UnpackedFloat.pack Format.binary64 (.finite s m e h) =
      if 2 ^ 11 ≤ (e + ((1023 : Nat) : Int) + ((52 : Nat) : Int)).toNat + 1 then
        UnpackedFloat.packedInfinity Format.binary64 s
      else if m.log2 + 1 = 53 then
        UnpackedFloat.packComponents Format.binary64 s
          (BitVec.ofNat 11 (e + ((1023 : Nat) : Int) + ((52 : Nat) : Int)).toNat) (BitVec.ofNat 52 m)
      else UnpackedFloat.packComponents Format.binary64 s 0#11 (BitVec.ofNat 52 m) :=
  rfl

/-- A canonical number in range is taken apart as what it was put together from. -/
theorem unpack_pack {s : Sign} {m : Nat} {e : Int} {h : 0 < m} (hc : Canonical m e)
    (he : e ≤ 971) : UnpackedFloat.unpack Format.binary64
      (UnpackedFloat.pack Format.binary64 (.finite s m e h)) = .finite s m e h := by
  have hge := hc.ge
  have hlt := hc.lt
  have hne : m ≠ 0 := Nat.pos_iff_ne_zero.mp h
  rw [pack_finite, if_neg (by omega)]
  by_cases hfull : m.log2 + 1 = 53
  · -- the first of the 53 bits is implicit, and the others are kept
    rw [if_pos hfull]
    have hlog : m.log2 = 52 := Nat.succ.inj hfull
    have hle : 2 ^ 52 ≤ m := hlog ▸ Nat.log2_self_le hne
    have hfield : (BitVec.ofNat 11 (e + ((1023 : Nat) : Int) + ((52 : Nat) : Int)).toNat).toNat =
        (e + 1075).toNat := by
      rw [BitVec.toNat_ofNat, Nat.mod_eq_of_lt (by omega)]
      omega
    refine unpack_normal s ?_ ?_ ?_ ?_
    · intro hmax
      rw [hmax] at hfield
      have h2047 : (-1#11).toNat = 2047 := rfl
      omega
    · intro hmin
      rw [hmin] at hfield
      have h0 : (0#11).toNat = 0 := rfl
      omega
    · rw [BitVec.toNat_ofNat]
      omega
    · rw [hfield]
      omega
  · -- a short mantissa has the least exponent and is kept as it is
    rw [if_neg hfull]
    have hlog : m.log2 < 53 := (Nat.log2_lt hne).mpr hlt
    have hshort : m.log2 < 52 := by
      have hne52 : m.log2 ≠ 52 := fun h52 => hfull (congrArg Nat.succ h52)
      omega
    have hm : m < 2 ^ 52 := (Nat.log2_lt hne).mp hshort
    obtain rfl : e = -1074 := hc.full.resolve_left (by omega)
    refine unpack_subnormal s ?_
    rw [BitVec.toNat_ofNat, Nat.mod_eq_of_lt hm]

/-- A canonical number that is no greater has no greater exponent, and no greater
mantissa if the exponents agree. Magnitudes are counted in units of `2 ^ b`. -/
theorem Canonical.lex_le {m m' : Nat} {e e' b : Int} (hc : Canonical m e)
    (hc' : Canonical m' e') (hb : b ≤ -1074)
    (hle : m * 2 ^ (e - b).toNat ≤ m' * 2 ^ (e' - b).toNat) : e < e' ∨ e = e' ∧ m ≤ m' := by
  have hge := hc.ge
  have hge' := hc'.ge
  rcases Int.lt_trichotomy e e' with hlt | rfl | hgt
  · exact .inl hlt
  · exact .inr ⟨rfl, Nat.le_of_mul_le_mul_right hle (Nat.two_pow_pos _)⟩
  · have hm : 2 ^ 52 ≤ m := hc.full.resolve_right (by omega)
    have hm' : m' < 2 ^ 53 := hc'.lt
    obtain ⟨k, hk⟩ : ∃ k, (e - b).toNat = (e' - b).toNat + 1 + k :=
      ⟨(e - b).toNat - ((e' - b).toNat + 1), by omega⟩
    -- twice the least full mantissa is above any mantissa
    have habove : m' * 2 ^ (e' - b).toNat < m * 2 ^ (e - b).toNat := by
      calc m' * 2 ^ (e' - b).toNat
          < 2 ^ 53 * 2 ^ (e' - b).toNat := Nat.mul_lt_mul_of_pos_right hm' (Nat.two_pow_pos _)
        _ = 2 ^ 52 * 2 ^ ((e' - b).toNat + 1) := by rw [Nat.pow_succ]; ring
        _ ≤ m * 2 ^ ((e' - b).toNat + 1) := Nat.mul_le_mul_right _ hm
        _ ≤ m * 2 ^ (e - b).toNat :=
          Nat.mul_le_mul_left _ (Nat.pow_le_pow_right (by decide) (by omega))
    omega

theorem Canonical.compare_isLE {m m' : Nat} {e e' b : Int} (hc : Canonical m e)
    (hc' : Canonical m' e') (hb : b ≤ -1074)
    (hle : m * 2 ^ (e - b).toNat ≤ m' * 2 ^ (e' - b).toNat) :
    ((compare e e').then (compare m m')).isLE = true := by
  rcases hc.lex_le hc' hb hle with hlt | ⟨rfl, hm⟩
  · rw [compare_lt_iff_lt.mpr hlt]
    rfl
  · rw [compare_eq_iff_eq.mpr rfl]
    exact Nat.isLE_compare.mpr hm

end CurvePlot.Double
