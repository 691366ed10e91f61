import CurvePlot.Proofs.Double.Rounding
/-!
# Counts as doubles

A count is converted to the nearest double, which may be below it. It is not above any
double that the count is no greater than, so comparing with the converted count says as
much about the whole part of a double as comparing with the count itself
(`natAbs_toInt_le`).
-/

namespace CurvePlot.Double

open Float.Model (Format UnpackedFloat)
open Float.Model.UnpackedFloat (Sign ExtendedMantissa)

/-- The magnitude in units far below the least double. -/
def units (m : Nat) (e : Int) : Nat := m * 2 ^ (e - -2000).toNat

/-- A zero, or a canonical positive number that is not above `k · 2 ^ f`. -/
def NotAbove (k : Nat) (f : Int) (u : UnpackedFloat) : Prop :=
  (∃ s, u = .zero s) ∨
    ∃ m e h, u = .finite .positive m e h ∧ Canonical m e ∧ units m e ≤ units k f

section NotAbove

variable {k : Nat} {f : Int} {u : UnpackedFloat}

/-- What is not above a double can be put together and taken apart again. -/
theorem NotAbove.unpack_pack (h : NotAbove k f u) (hc : Canonical k f) (hf : f ≤ 971) :
    UnpackedFloat.unpack Format.binary64 (UnpackedFloat.pack Format.binary64 u) = u := by
  rcases h with ⟨s, rfl⟩ | ⟨m, e, h, rfl, hm, hle⟩
  · exact unpack_pack_zero s
  · refine Double.unpack_pack hm ?_
    rcases hm.lex_le hc (by decide) hle with hlt | ⟨rfl, -⟩
    · omega
    · exact hf

/-- Rounding keeps a number not above a double that it was not above. -/
theorem notAbove_round {m : Nat} {e : Int} (hm : m ≠ 0) (he : e ≤ keptExponent m e)
    (hb : -2000 ≤ e) (hc : Canonical k f) (hle : units m e ≤ units k f) :
    NotAbove k f (UnpackedFloat.roundWithAccuracy Format.binary64 .positive m e .exact) := by
  rcases round_cases .positive hm he with heq | ⟨m', e', h, heq, hc', hbound⟩
  · exact .inl ⟨_, heq⟩
  · exact .inr ⟨m', e', h, heq, hc', hbound k f _ hc hb (by decide) hle⟩

end NotAbove

/-! ### Converting counts -/

theorem unpack_ofModel_pack (u : UnpackedFloat) : (Float.ofModel (.pack u)).toModel.unpack =
    UnpackedFloat.unpack Format.binary64 (UnpackedFloat.pack Format.binary64 u) := rfl

theorem unpack_one : (Float.ofBits 0x3FF0000000000000).toModel.unpack =
    .finite .positive (2 ^ 52) (-52) (by decide) := rfl

theorem units_shift {m : Nat} {e : Int} {s : Nat} (hb : -2000 ≤ e - s) :
    units (m * 2 ^ s) (e - s) = units m e := by
  unfold units
  have hsum : (e - -2000).toNat = s + (e - s - -2000).toNat := by omega
  rw [hsum, Nat.pow_add, Nat.mul_assoc]

theorem keptExponent_shift {m : Nat} (hm : m ≠ 0) (e : Int) (s : Nat) :
    keptExponent (m * 2 ^ s) (e - s) = keptExponent m e := by
  unfold keptExponent
  rw [log2_mul_two_pow hm]
  omega

section

variable {n k : Nat} {f : Int}

/-- A count is rounded to a number that is not above any double that it is no greater
than. -/
theorem notAbove_ofNat (hc : Canonical k f) (hle : units n 0 ≤ units k f) :
    NotAbove k f (UnpackedFloat.ofNat Format.binary64 n) := by
  cases n with
  | zero => exact .inl ⟨.positive, rfl⟩
  | succ n =>
    -- the word is shifted by as many places as its exponent may have to go down
    let s : Nat := (0 - keptExponent (n + 1) 0).toNat
    have heq : UnpackedFloat.ofNat Format.binary64 (n + 1) =
        UnpackedFloat.roundWithAccuracy Format.binary64 .positive ((n + 1) <<< s) (0 - s) .exact := rfl
    have hs : s ≤ 1074 := by
      show (0 - keptExponent (n + 1) 0).toNat ≤ 1074
      unfold keptExponent
      omega
    rw [heq, Nat.shiftLeft_eq]
    refine notAbove_round ?_ ?_ (by omega) hc ?_
    · exact Nat.mul_ne_zero (Nat.succ_ne_zero n) (Nat.two_pow_pos s).ne'
    · rw [keptExponent_shift n.add_one_ne_zero]
      show 0 - ((0 - keptExponent (n + 1) 0).toNat : Int) ≤ _
      omega
    · rw [units_shift (by omega)]
      exact hle

/-- A number that is not above a double is not above it when it is multiplied by one. -/
theorem NotAbove.mul_one {u : UnpackedFloat} (h : NotAbove k f u) (hc : Canonical k f) :
    NotAbove k f (UnpackedFloat.mul Format.binary64 u
      (.finite .positive (2 ^ 52) (-52) (by decide))) := by
  -- zero stays zero, and else the product is shifted by the 52 bits that one has
  rcases h with ⟨s, rfl⟩ | ⟨m, e, h, rfl, hm, hle⟩
  · exact .inl ⟨_, rfl⟩
  · have hne : m ≠ 0 := hm.pos.ne'
    have hge := hm.ge
    refine notAbove_round (Nat.mul_ne_zero hne (by decide)) ?_ (by omega) hc ?_
    · have hkept := keptExponent_shift hne e 52
      rw [hm.keptExponent_eq] at hkept
      show e - (52 : Nat) ≤ keptExponent (m * 2 ^ 52) (e - (52 : Nat))
      omega
    · show units (m * 2 ^ 52) (e - (52 : Nat)) ≤ units k f
      rw [units_shift (by omega)]
      exact hle

theorem mul_finite (s s' : Sign) (m m' : Nat) (e e' : Int) (h : 0 < m) (h' : 0 < m') :
    UnpackedFloat.mul Format.binary64 (.finite s m e h) (.finite s' m' e' h') =
      UnpackedFloat.roundWithAccuracy Format.binary64 (s * s') (m * m') (e + e') .exact :=
  rfl

/-- Long counts take another way to the same end. -/
theorem ofScientific_eq (hn : n ≠ 0) : UnpackedFloat.ofScientific Format.binary64 n 0 =
    UnpackedFloat.roundWithAccuracy Format.binary64 .positive (n * 2 ^ 53) (0 - (53 : Nat)) .exact := by
  -- the count is far from the smallest exponents
  have hrange : ¬ (0 : Int) < -((2 ^ Format.binary64.exponentBits : Int) + n.log2) := by
    have hpos : (0 : Int) ≤ 2 ^ Format.binary64.exponentBits := by decide
    omega
  have hbits : Format.binary64.mantissaBits = 53 := rfl
  rw [UnpackedFloat.ofScientific]
  rw [dif_neg hn, if_neg (by decide), if_neg hrange, if_pos (by decide)]
  rw [mul_finite]
  rw [hbits, Int.toNat_zero, Nat.pow_zero, Nat.mul_one, Nat.shiftLeft_eq]
  rfl

/-- The shift leaves room below the mantissa. -/
theorem le_keptExponent_ofScientific (hn : n ≠ 0) :
    0 - ((53 : Nat) : Int) ≤ keptExponent (n * 2 ^ 53) (0 - (53 : Nat)) := by
  rw [keptExponent_shift hn]
  unfold keptExponent
  omega

theorem notAbove_ofScientific (hn : n ≠ 0) (hc : Canonical k f) (hle : units n 0 ≤ units k f) :
    NotAbove k f (UnpackedFloat.ofScientific Format.binary64 n 0) := by
  rw [ofScientific_eq hn]
  refine notAbove_round (Nat.mul_ne_zero hn (Nat.two_pow_pos 53).ne')
    (le_keptExponent_ofScientific hn) (by decide) hc ?_
  rw [units_shift (by decide)]
  exact hle

/-- **A count is converted to a double that is not above any double that the count is no
greater than.** -/
theorem notAbove_floatOfNat (hc : Canonical k f) (hf : f ≤ 971) (hle : units n 0 ≤ units k f) :
    NotAbove k f (Float.ofNat n).toModel.unpack := by
  unfold Float.ofNat
  show NotAbove k f (Float.ofScientific n false 0).toModel.unpack
  unfold Float.ofScientific
  split
  · -- a count of 64 bits is converted as a word and multiplied by one
    next hn =>
    have hword : n.toUInt64.toNat = n := UInt64.toNat_ofNat_of_lt' (by
      rw [show UInt64.size = 2 ^ 64 from rfl]
      omega)
    have hfloat : n.toUInt64.toFloat.toModel.unpack = UnpackedFloat.ofNat Format.binary64 n := by
      show UnpackedFloat.unpack Format.binary64 (UnpackedFloat.pack Format.binary64
        (UnpackedFloat.ofNat Format.binary64 n.toUInt64.toNat)) = _
      rw [hword]
      exact (notAbove_ofNat hc hle).unpack_pack hc hf
    show NotAbove k f (Float.ofModel (.pack (UnpackedFloat.mul Format.binary64
      n.toUInt64.toFloat.toModel.unpack
        (Float.ofBits 0x3FF0000000000000).toModel.unpack))).toModel.unpack
    have hmul := (notAbove_ofNat hc hle).mul_one hc
    rw [unpack_ofModel_pack, hfloat, unpack_one, hmul.unpack_pack hc hf]
    exact hmul
  · -- a longer one is shifted and rounded
    next hn =>
    have hne : n ≠ 0 := by
      rintro rfl
      exact hn (by decide)
    show NotAbove k f (Float.ofModel (.pack
      (UnpackedFloat.ofScientific Format.binary64 n 0))).toModel.unpack
    have hslow := notAbove_ofScientific hne hc hle
    rw [unpack_ofModel_pack, hslow.unpack_pack hc hf]
    exact hslow

end

/-! ### Whole parts -/

/-- The whole part is what is left when the bits below the point are dropped. -/
theorem roundToInt_eq (s : Sign) (m : Nat) (e : Int) : UnpackedFloat.roundToInt s m e =
    s.apply ((whole (m <<< (e - 0).toNat) >>> (0 - (e - (e - 0).toNat)).toNat).mantissa : Int) :=
  rfl

/-- Dropping the bits below the point makes a number no greater. -/
theorem units_le_of_lt_roundToInt {s : Sign} {m n : Nat} {e : Int} (he : -2000 ≤ e)
    (h : n < (UnpackedFloat.roundToInt s m e).toNat) : units n 0 ≤ units m e := by
  rw [roundToInt_eq, Int.sub_zero, (whole_shift _ _).1, Nat.shiftLeft_eq] at h
  generalize ht : (0 - (e - e.toNat)).toNat = t at h
  have hlt : n < m * 2 ^ e.toNat / 2 ^ t := by
    -- below zero the count would be cut off
    generalize m * 2 ^ e.toNat / 2 ^ t = q at h
    cases s with
    | negative =>
      have hneg : (Sign.negative.apply (q : Int)).toNat = 0 := by
        show (-(q : Int)).toNat = 0
        omega
      exact absurd h (hneg ▸ Nat.not_lt_zero n)
    | positive => exact h
  have hmul : n * 2 ^ t ≤ m * 2 ^ e.toNat :=
    (Nat.le_div_iff_mul_le (Nat.two_pow_pos t)).mp (Nat.le_of_lt hlt)
  -- both sides are counted in the least of the units
  obtain ⟨r, hr⟩ : ∃ r, 2000 = t + r := ⟨2000 - t, by omega⟩
  have hleft : ((0 : Int) - -2000).toNat = t + r := hr
  have hright : (e - -2000).toNat = e.toNat + r := by omega
  unfold units
  rw [hleft, hright, Nat.pow_add, Nat.pow_add, ← Nat.mul_assoc, ← Nat.mul_assoc]
  exact Nat.mul_le_mul_right _ hmul

/-- A count that does not fit into a word is cut off at the greatest word. -/
theorem toNat_le_toInt (v : Float) :
    toNat v ≤ (v.toModel.unpack.toInt 0 (UInt64.size - 1)).toNat := by
  show (UInt64.ofNatClamp (v.toModel.unpack.toInt 0 (UInt64.size - 1)).toNat).toNat ≤ _
  unfold UInt64.ofNatClamp
  split
  · next hlt => exact Nat.le_of_eq UInt64.toNat_ofNatLT
  · next hge =>
    rw [UInt64.toNat_ofNatLT]
    omega

/-- A count below the whole part of a number is not above the number. -/
theorem units_le_of_lt_toNat {v : Float} {s : Sign} {m n : Nat} {e : Int} {h : 0 < m}
    (hv : v.toModel.unpack = .finite s m e h) (hn : n < toNat v) : units n 0 ≤ units m e := by
  have hge : -1074 ≤ e := (canonical_of_unpack hv).1.ge
  have hclamp := toNat_le_toInt v
  rw [hv] at hclamp
  exact units_le_of_lt_roundToInt (by omega) (Nat.lt_of_lt_of_le hn hclamp)

/-! ### The comparison -/

theorem unpack_abs {v : Float} {s : Sign} {m : Nat} {e : Int} {h : 0 < m}
    (hv : v.toModel.unpack = .finite s m e h) :
    v.abs.toModel.unpack = .finite .positive m e h := by
  obtain ⟨hc, he⟩ := canonical_of_unpack hv
  show (Float.ofModel (.pack v.toModel.unpack.abs)).toModel.unpack = _
  rw [hv, unpack_ofModel_pack]
  exact unpack_pack hc he

theorem unpack_neg {v : Float} {s : Sign} {m : Nat} {e : Int} {h : 0 < m}
    (hv : v.toModel.unpack = .finite s m e h) : (-v).toModel.unpack = .finite (-s) m e h := by
  obtain ⟨hc, he⟩ := canonical_of_unpack hv
  show (Float.ofModel (.pack v.toModel.unpack.neg)).toModel.unpack = _
  rw [hv, unpack_ofModel_pack]
  exact unpack_pack hc he

/-- A count that a number is no less than is converted to a double that its magnitude is
no less than. -/
theorem ofNat_le_abs {v : Float} {s : Sign} {m n : Nat} {e : Int} {h : 0 < m}
    (hv : v.toModel.unpack = .finite s m e h) (hle : units n 0 ≤ units m e) :
    Float.ofNat n ≤ v.abs := by
  obtain ⟨hc, he⟩ := canonical_of_unpack hv
  refine decide_eq_true (?_ : (Float.ofNat n).toModel ≤ v.abs.toModel)
  show ((Float.ofNat n).toModel.unpack.compare v.abs.toModel.unpack).any (·.isLE) = true
  rw [unpack_abs hv]
  rcases notAbove_floatOfNat hc he hle with ⟨s', heq⟩ | ⟨m', e', h', heq, hc', hle'⟩
  · rw [heq]
    rfl
  · rw [heq]
    exact hc'.compare_isLE hc (by decide) hle'

theorem toNat_zero {v : Float} {s : Sign} (hv : v.toModel.unpack = .zero s) : toNat v = 0 := by
  have hclamp := toNat_le_toInt v
  rw [hv] at hclamp
  exact Nat.le_zero.mp hclamp

/-- **The whole part of a double is no greater than a count,** if its magnitude is not as
great as the count as a double. -/
theorem natAbs_toInt_le {v : Float} {n : Nat} (hfin : v.isFinite = true)
    (h : ¬ Float.ofNat n ≤ v.abs) : (toInt v).natAbs ≤ n := by
  have hpart : toNat v ≤ n ∧ toNat (-v) ≤ n := by
    -- both the number and its opposite are cut off at zero, and one of them is the magnitude
    have hmodel : v.toModel.unpack.isFinite = true := hfin
    cases hv : v.toModel.unpack with
    | notANumber =>
      rw [hv] at hmodel
      cases hmodel
    | infinity s =>
      rw [hv] at hmodel
      cases hmodel
    | zero s =>
      have hneg : (-v).toModel.unpack = .zero (-s) := by
        show (Float.ofModel (.pack v.toModel.unpack.neg)).toModel.unpack = _
        rw [hv, unpack_ofModel_pack]
        exact unpack_pack_zero (-s)
      rw [toNat_zero hv, toNat_zero hneg]
      exact ⟨Nat.zero_le n, Nat.zero_le n⟩
    | finite s m e hm =>
      -- one of the two is the magnitude, and the other is cut off at zero
      constructor
      · by_contra hlt
        exact h (ofNat_le_abs hv (units_le_of_lt_toNat hv (Nat.lt_of_not_le hlt)))
      · by_contra hlt
        exact h (ofNat_le_abs hv (units_le_of_lt_toNat (unpack_neg hv) (Nat.lt_of_not_le hlt)))
  unfold toInt
  split
  · rw [Int.natAbs_neg]
    exact hpart.2
  · exact hpart.1

end CurvePlot.Double
