import CurvePlot.Proofs.Double.Order
import Mathlib.Algebra.Order.Field.Power
import Mathlib.Data.Rat.Cast.Order
import Mathlib.Tactic.FieldSimp
import Mathlib.Tactic.Linarith
import Mathlib.Tactic.Positivity
/-!
# The nearest double

The doubles that are not below zero are numbered in their order: `m · 2 ^ e` has the rank
`(e + 1074) · 2 ^ 52 + m`, and infinity comes after all of them. A rational number is
rounded in two steps. Its size says which exponent it is kept at (`Kept`), and then its
multiple of that power of two is rounded to the nearest whole number, half-way values to
the even one (`NearestEven`). Both steps keep the order, so the rank that a number is
rounded to does (`RankOf.mono`).

`Rounds x u` says that `u` is what the exact result `x` is rounded to, and all that is
shown about operations on doubles has this form. What follows from it is that rounding
keeps the order (`Rounds.mono`) and leaves doubles alone (`Rounds.self`).
-/

namespace CurvePlot.Double

open Float.Model (Format UnpackedFloat)
open Float.Model.UnpackedFloat (Sign)

/-! ### Nearest whole numbers -/

/-- The whole number nearest to `q`, the even one of two. -/
structure NearestEven (q : ℚ) (k : ℕ) : Prop where
  /-- It is not more than half too great, -/
  lower : (k : ℚ) - 1 / 2 ≤ q
  /-- nor more than half too small. -/
  upper : q ≤ k + 1 / 2
  /-- Half-way between two it is the even one. -/
  even : q = k - 1 / 2 ∨ q = k + 1 / 2 → k % 2 = 0

/-- A whole number is the nearest to itself. -/
theorem NearestEven.natCast (k : ℕ) : NearestEven k k := by
  refine ⟨by linarith, by linarith, fun h => ?_⟩
  rcases h with h | h <;> linarith

/-- Rounding to whole numbers keeps the order. -/
theorem NearestEven.mono {q r : ℚ} {k l : ℕ} (hk : NearestEven q k) (hl : NearestEven r l)
    (hle : q ≤ r) : k ≤ l := by
  by_contra hlt
  -- the two are neighbours, and both numbers lie half-way between them
  have hsucc : (l : ℚ) + 1 ≤ k := by exact_mod_cast Nat.lt_of_not_le hlt
  have hlower := hk.lower
  have hupper := hl.upper
  have hk' : (k : ℚ) = l + 1 := by linarith
  have hnext : k = l + 1 := by exact_mod_cast hk'
  have hevenk : k % 2 = 0 := hk.even (.inl (by linarith))
  have hevenl : l % 2 = 0 := hl.even (.inr (by linarith))
  omega

/-! ### Ranks -/

/-- The place of `m · 2 ^ e` among the doubles that are not below zero. -/
def rank (m : ℕ) (e : ℤ) : ℕ := (e + 1074).toNat * 2 ^ 52 + m

/-- The rank of infinity. -/
def beyond : ℕ := 2047 * 2 ^ 52

/-- A magnitude `x` is kept in units of `2 ^ e`: they are the greatest in which it has as many
bits as a mantissa, or the least there are. -/
structure Kept (x : ℚ) (e : ℤ) : Prop where
  /-- There are no smaller units. -/
  ge : -1074 ≤ e
  /-- It is not too long for a mantissa. -/
  lt : x < 2 ^ (e + 53)
  /-- In smaller units it would be too long, if there are any. -/
  full : e = -1074 ∨ (2 : ℚ) ^ (e + 52) ≤ x

/-- A smaller magnitude is not kept in greater units. -/
theorem Kept.mono {x y : ℚ} {e f : ℤ} (hx : Kept x e) (hy : Kept y f) (hle : x ≤ y) : e ≤ f := by
  by_contra hlt
  rcases hx.full with rfl | hfull
  · exact hlt hy.ge
  · -- otherwise the greater one would be shorter than the smaller one
    have hpow : (2 : ℚ) ^ (f + 53) ≤ 2 ^ (e + 52) :=
      zpow_le_zpow_right₀ (by norm_num) (by omega)
    have hlty := hy.lt
    linarith

/-- The rank that a magnitude is rounded to. -/
def RankOf (x : ℚ) (r : ℕ) : Prop :=
  ∃ e k, Kept x e ∧ NearestEven (x / 2 ^ e) k ∧ r = rank k e

/-- A mantissa is rounded to one of as many bits, or to the power of two that follows. -/
theorem NearestEven.bounds {x : ℚ} {e : ℤ} {k : ℕ} (hk : NearestEven (x / 2 ^ e) k)
    (hx : Kept x e) : k ≤ 2 ^ 53 ∧ (2 ^ 52 ≤ k ∨ e = -1074) := by
  have hunit : (0 : ℚ) < 2 ^ e := by positivity
  constructor
  · -- not more than half is added to it
    have hlt : x / 2 ^ e < 2 ^ 53 := by
      rw [div_lt_iff₀ hunit]
      calc x < 2 ^ (e + 53) := hx.lt
        _ = 2 ^ 53 * 2 ^ e := by rw [zpow_add₀ (by norm_num), mul_comm]; rfl
    have hlower := hk.lower
    have hsucc : (k : ℚ) < (2 ^ 53 + 1 : ℕ) := by
      push_cast
      linarith
    exact Nat.le_of_lt_succ (by exact_mod_cast hsucc)
  · rcases hx.full with hleast | hfull
    · -- the least units are as small as they get
      exact .inr hleast
    · -- not more than half is taken off
      have hge : (2 : ℚ) ^ 52 ≤ x / 2 ^ e := by
        rw [le_div_iff₀ hunit]
        calc (2 : ℚ) ^ 52 * 2 ^ e = 2 ^ (e + 52) := by
              rw [zpow_add₀ (by norm_num), mul_comm]; rfl
          _ ≤ x := hfull
      have hupper := hk.upper
      have hsucc : ((2 ^ 52 : ℕ) : ℚ) < (k + 1 : ℕ) := by
        push_cast
        linarith
      exact .inl (Nat.le_of_lt_succ (by exact_mod_cast hsucc))

/-- **Rounding keeps the order of magnitudes.** -/
theorem RankOf.mono {x y : ℚ} {r s : ℕ} (hx : RankOf x r) (hy : RankOf y s) (hle : x ≤ y) :
    r ≤ s := by
  obtain ⟨e, k, hkept, hk, rfl⟩ := hx
  obtain ⟨f, l, hkept', hl, rfl⟩ := hy
  have hge := hkept.ge
  unfold rank
  rcases Int.lt_or_eq_of_le (hkept.mono hkept' hle) with hlt | rfl
  · -- the mantissas say nothing, but the lower one is carried over once at most
    have hcarry := (hk.bounds hkept).1
    have hfull := (hl.bounds hkept').2.resolve_right (by omega)
    have hunits : (e + 1074).toNat + 1 ≤ (f + 1074).toNat := by omega
    have hmul := Nat.mul_le_mul_right (2 ^ 52) hunits
    omega
  · have hdiv : x / 2 ^ e ≤ y / 2 ^ e := div_le_div_of_nonneg_right hle (by positivity)
    exact Nat.add_le_add_left (hk.mono hl hdiv) _

/-- Nothing is rounded to the first place. -/
theorem RankOf.zero : RankOf 0 0 := by
  refine ⟨-1074, 0, ⟨Int.le_refl _, by positivity, .inl rfl⟩, ?_, rfl⟩
  rw [zero_div]
  exact NearestEven.natCast 0

/-- Half the least double is one half of a unit. -/
theorem half_least : (2 : ℚ) ^ (-1075 : ℤ) = 1 / 2 * 2 ^ (-1074 : ℤ) := by
  rw [show (-1075 : ℤ) = -1 + -1074 from rfl, zpow_add₀ (by norm_num)]
  norm_num

/-- Half the least double is rounded to zero, the even one of its neighbours. -/
theorem RankOf.zero_of_le {x : ℚ} (h0 : 0 ≤ x) (h : x ≤ 2 ^ (-1075 : ℤ)) : RankOf x 0 := by
  have hunit : (0 : ℚ) < 2 ^ (-1074 : ℤ) := by positivity
  have hge : 0 ≤ x / 2 ^ (-1074 : ℤ) := div_nonneg h0 hunit.le
  have hle : x / 2 ^ (-1074 : ℤ) ≤ 1 / 2 := (div_le_iff₀ hunit).mpr (half_least ▸ h)
  have hlt : x < 2 ^ (-1074 + 53 : ℤ) :=
    h.trans_lt (zpow_lt_zpow_right₀ (by norm_num) (by norm_num))
  refine ⟨-1074, 0, ⟨le_rfl, hlt, .inl rfl⟩, ?_, rfl⟩
  generalize x / 2 ^ (-1074 : ℤ) = q at hge hle
  exact ⟨by push_cast; linarith, by push_cast; linarith, fun _ => rfl⟩

/-- What is rounded to zero is half the least double at most. -/
theorem RankOf.eq_zero_iff {x : ℚ} {r : ℕ} (h : RankOf x r) :
    r = 0 ↔ x ≤ 2 ^ (-1075 : ℤ) := by
  have hunit : (0 : ℚ) < 2 ^ (-1074 : ℤ) := by positivity
  constructor
  · intro hzero
    obtain ⟨e, k, hkept, hk, rfl⟩ := h
    have hge := hkept.ge
    -- no other rank is zero
    obtain ⟨rfl, rfl⟩ : e = -1074 ∧ k = 0 := by
      unfold rank at hzero
      omega
    have hupper := hk.upper
    rw [Nat.cast_zero, zero_add, div_le_iff₀ hunit] at hupper
    rw [half_least]
    exact hupper
  · intro hle
    exact Nat.le_zero.mp (h.mono (.zero_of_le (by positivity) le_rfl) hle)

/-- A canonical number has its own rank. -/
theorem Canonical.rankOf {m : ℕ} {e : ℤ} (hc : Canonical m e) :
    RankOf (m * 2 ^ e) (rank m e) := by
  have hunit : (0 : ℚ) < 2 ^ e := by positivity
  refine ⟨e, m, ⟨hc.ge, ?_, ?_⟩, ?_, rfl⟩
  · -- a mantissa is not too long
    have hlt : (m : ℚ) < 2 ^ 53 := by exact_mod_cast hc.lt
    calc (m : ℚ) * 2 ^ e < 2 ^ 53 * 2 ^ e := mul_lt_mul_of_pos_right hlt hunit
      _ = 2 ^ (e + 53) := by rw [zpow_add₀ (by norm_num), mul_comm]; rfl
  · -- and it is long enough, or counted in the least units
    refine hc.full.symm.imp_right fun hfull => ?_
    have hge : (2 : ℚ) ^ 52 ≤ m := by exact_mod_cast hfull
    calc (2 : ℚ) ^ (e + 52) = 2 ^ 52 * 2 ^ e := by
          rw [zpow_add₀ (by norm_num), mul_comm]; rfl
      _ ≤ m * 2 ^ e := mul_le_mul_of_nonneg_right hge hunit.le
  · rw [mul_div_cancel_right₀ _ hunit.ne']
    exact NearestEven.natCast m

/-- The ranks of numbers other than zero are positive, -/
theorem Canonical.rank_pos {m : ℕ} {e : ℤ} (hc : Canonical m e) : 0 < rank m e :=
  Nat.lt_of_lt_of_le hc.pos (Nat.le_add_left _ _)

/-- below infinity if the exponent is in range -/
theorem Canonical.rank_lt {m : ℕ} {e : ℤ} (hc : Canonical m e) (he : e ≤ 971) :
    rank m e < beyond := by
  have hlt := hc.lt
  have hge := hc.ge
  unfold rank beyond
  omega

/-- and not below it otherwise. -/
theorem Canonical.beyond_le {m : ℕ} {e : ℤ} (hc : Canonical m e) (he : 971 < e) :
    beyond ≤ rank m e := by
  have hfull := hc.full.resolve_right (by omega)
  unfold rank beyond
  omega

/-- Canonical numbers are ordered as their ranks are. -/
theorem Canonical.compare_rank {m m' : ℕ} {e e' : ℤ} (hc : Canonical m e)
    (hc' : Canonical m' e') :
    (compare e e').then (compare m m') = compare (rank m e) (rank m' e') := by
  have hge := hc.ge
  have hge' := hc'.ge
  have hlt := hc.lt
  have hlt' := hc'.lt
  -- either the exponents decide, since the mantissa of the greater one is full, or the mantissas do
  rcases Int.lt_trichotomy e e' with h | rfl | h
  · have hfull := hc'.full.resolve_right (by omega)
    have hrank : rank m e < rank m' e' := by
      unfold rank
      omega
    rw [compare_lt_iff_lt.mpr h, compare_lt_iff_lt.mpr hrank]
    rfl
  · rw [compare_eq_iff_eq.mpr rfl]
    show compare m m' = _
    rcases Nat.lt_trichotomy m m' with h | rfl | h
    · have hrank : rank m e < rank m' e := Nat.add_lt_add_left h _
      rw [compare_lt_iff_lt.mpr h, compare_lt_iff_lt.mpr hrank]
    · rw [compare_eq_iff_eq.mpr rfl, compare_eq_iff_eq.mpr rfl]
    · have hrank : rank m' e < rank m e := Nat.add_lt_add_left h _
      rw [compare_gt_iff_gt.mpr h, compare_gt_iff_gt.mpr hrank]
  · have hfull := hc.full.resolve_right (by omega)
    have hrank : rank m' e' < rank m e := by
      unfold rank
      omega
    rw [compare_gt_iff_gt.mpr h, compare_gt_iff_gt.mpr hrank]
    rfl

/-! ### Signs -/

/-- One with the sign. -/
def unit : Sign → ℤ
  | .positive => 1
  | .negative => -1

/-- Signs are multiplied as numbers are. -/
theorem unit_mul (s s' : Sign) : unit (s * s') = unit s * unit s' := by
  cases s <;> cases s' <;> rfl

/-- They are divided like that too. -/
theorem unit_div (s s' : Sign) : unit (s / s') = unit s * unit s' := by
  cases s <;> cases s' <;> rfl

/-- The other sign is the other unit. -/
theorem unit_neg (s : Sign) : unit (-s) = -unit s := by
  cases s <;> rfl

/-- A sign is put to a number by multiplying. -/
theorem apply_eq_unit_mul (s : Sign) (n : ℤ) : s.apply n = unit s * n := by
  cases s
  · exact (neg_one_mul n).symm
  · exact (one_mul n).symm

/-- The place of a double among all of them. Both zeros are in the middle. -/
def place : UnpackedFloat → ℤ
  | .notANumber => 0
  | .zero _ => 0
  | .infinity s => unit s * beyond
  | .finite s m e _ => unit s * rank m e

/-- The number that a finite double is. -/
def value : UnpackedFloat → ℚ
  | .finite s m e _ => unit s * (m * 2 ^ e)
  | _ => 0

/-- The powers of two among the doubles. -/
theorem value_two_pow {k : ℕ} {e : ℤ} (h : 0 < 2 ^ k) :
    value (.finite .positive (2 ^ k) e h) = 2 ^ (k + e) := by
  show ((1 : ℤ) : ℚ) * ((2 ^ k : ℕ) * 2 ^ e) = 2 ^ (k + e)
  rw [Int.cast_one, one_mul, Nat.cast_pow, Nat.cast_two, zpow_add₀ two_ne_zero, zpow_natCast]

/-- What 64 bits can hold. -/
def Packed : UnpackedFloat → Prop
  | .finite _ m e _ => Canonical m e ∧ e ≤ 971
  | _ => True

/-- What 64 bits hold is canonical and in range. -/
theorem packed_unpack (bits : BitVec 64) : Packed (UnpackedFloat.unpack Format.binary64 bits) := by
  cases h : UnpackedFloat.unpack Format.binary64 bits with
  | finite s m e hm => exact canonical_of_unpack h
  | notANumber | infinity | zero => trivial

/-- What 64 bits can hold is taken apart as what it was put together from. -/
theorem Packed.unpack_pack {u : UnpackedFloat} (hu : Packed u) (hne : u ≠ .notANumber) :
    UnpackedFloat.unpack Format.binary64 (UnpackedFloat.pack Format.binary64 u) = u := by
  cases u with
  | notANumber => exact absurd rfl hne
  | infinity s => cases s <;> rfl
  | zero s => exact unpack_pack_zero s
  | finite s m e h => exact Double.unpack_pack hu.1 hu.2

/-- The sign of a double is on which side of the middle it is. -/
theorem Packed.place_pos {m : ℕ} {e : ℤ} {h : 0 < m} (hu : Packed (.finite .positive m e h)) :
    0 < place (.finite .positive m e h) := by
  have hpos := hu.1.rank_pos
  show 0 < 1 * (rank m e : ℤ)
  omega

/-- The numbers below zero are before the middle. -/
theorem Packed.place_neg {m : ℕ} {e : ℤ} {h : 0 < m} (hu : Packed (.finite .negative m e h)) :
    place (.finite .negative m e h) < 0 := by
  have hpos := hu.1.rank_pos
  show -1 * (rank m e : ℤ) < 0
  omega

/-- Infinities are beyond the finite doubles. -/
theorem Packed.place_bounds {u : UnpackedFloat} (hu : Packed u) (hfin : u.isFinite = true) :
    place (.infinity .negative) < place u ∧ place u < place (.infinity .positive) := by
  show -1 * (beyond : ℤ) < _ ∧ _ < 1 * (beyond : ℤ)
  cases u with
  | notANumber | infinity => cases hfin
  | zero s => exact ⟨(by decide : -1 * (beyond : ℤ) < 0), (by decide : 0 < 1 * (beyond : ℤ))⟩
  | finite s m e h =>
    have hlt := hu.1.rank_lt hu.2
    -- as far from the middle as the rank says, on either side
    cases s
    · show _ < -1 * (rank m e : ℤ) ∧ -1 * (rank m e : ℤ) < _
      omega
    · show _ < 1 * (rank m e : ℤ) ∧ 1 * (rank m e : ℤ) < _
      omega

/-- Infinities are compared with finite doubles. -/
theorem compare_infinity {u : UnpackedFloat} (hu : Packed u) (hfin : u.isFinite = true) (s : Sign) :
    (UnpackedFloat.infinity s).compare u = some (compare (place (.infinity s)) (place u)) ∧
      u.compare (.infinity s) = some (compare (place u) (place (.infinity s))) := by
  obtain ⟨hlower, hupper⟩ := hu.place_bounds hfin
  cases s
  · rw [compare_lt_iff_lt.mpr hlower, compare_gt_iff_gt.mpr hlower]
    cases u with
    | notANumber | infinity => cases hfin
    | zero | finite => exact ⟨rfl, rfl⟩
  · rw [compare_gt_iff_gt.mpr hupper, compare_lt_iff_lt.mpr hupper]
    cases u with
    | notANumber | infinity => cases hfin
    | zero | finite => exact ⟨rfl, rfl⟩

/-- Below the middle the order is turned round. -/
theorem compare_unit_mul (r r' : ℕ) :
    compare (unit .positive * (r : ℤ)) (unit .positive * r') = compare r r' ∧
      compare (unit .negative * (r : ℤ)) (unit .negative * r') = (compare r r').swap := by
  rw [show unit .positive = 1 from rfl, show unit .negative = -1 from rfl]
  -- the ranks are less, equal or greater, and turned round they are compared the other way
  rcases Nat.lt_trichotomy r r' with h | rfl | h
  · rw [compare_lt_iff_lt.mpr h]
    exact ⟨compare_lt_iff_lt.mpr (by omega), compare_gt_iff_gt.mpr (by omega)⟩
  · rw [compare_eq_iff_eq.mpr rfl, compare_eq_iff_eq.mpr rfl, compare_eq_iff_eq.mpr rfl]
    exact ⟨rfl, rfl⟩
  · rw [compare_gt_iff_gt.mpr h]
    exact ⟨compare_gt_iff_gt.mpr (by omega), compare_lt_iff_lt.mpr (by omega)⟩

/-- Finite doubles are compared as their places are. -/
theorem compare_finite {u v : UnpackedFloat} (hu : Packed u) (hv : Packed v)
    (hfin : u.isFinite = true) (hfin' : v.isFinite = true) :
    u.compare v = some (compare (place u) (place v)) := by
  cases u with
  | notANumber | infinity => cases hfin
  | zero s =>
    cases v with
    | notANumber | infinity => cases hfin'
    | zero s' => rfl
    | finite s' m' e' h' =>
      -- a number against zero is a matter of its sign
      cases s'
      · exact congrArg some (compare_gt_iff_gt.mpr hv.place_neg).symm
      · exact congrArg some (compare_lt_iff_lt.mpr hv.place_pos).symm
  | finite s m e h =>
    cases v with
    | notANumber | infinity => cases hfin'
    | zero s' =>
      cases s
      · exact congrArg some (compare_lt_iff_lt.mpr hu.place_neg).symm
      · exact congrArg some (compare_gt_iff_gt.mpr hu.place_pos).symm
    | finite s' m' e' h' =>
      -- two numbers of one sign are a matter of their ranks, and of different signs of the signs
      obtain ⟨hpos, hneg⟩ := compare_unit_mul (rank m e) (rank m' e')
      rw [← hu.1.compare_rank hv.1] at hpos hneg
      cases s <;> cases s'
      · exact congrArg some hneg.symm
      · exact congrArg some (compare_lt_iff_lt.mpr (hu.place_neg.trans hv.place_pos)).symm
      · exact congrArg some (compare_gt_iff_gt.mpr (hv.place_neg.trans hu.place_pos)).symm
      · exact congrArg some hpos.symm

/-- **Doubles are compared as their places are,** unless one is no number. -/
theorem compare_place {u v : UnpackedFloat} (hu : Packed u) (hv : Packed v)
    (hu' : u ≠ .notANumber) (hv' : v ≠ .notANumber) :
    u.compare v = some (compare (place u) (place v)) := by
  cases u with
  | notANumber => exact absurd rfl hu'
  | infinity s =>
    cases v with
    | notANumber => exact absurd rfl hv'
    | infinity s' => cases s <;> cases s' <;> rfl
    | zero | finite => exact (compare_infinity hv rfl s).1
  | zero | finite =>
    cases v with
    | notANumber => exact absurd rfl hv'
    | infinity s' => exact (compare_infinity hu rfl s').2
    | zero | finite => exact compare_finite hu hv rfl rfl

section Order

variable {v w : Float}

/-- A double is what its 64 bits hold. -/
theorem packed (v : Float) : Packed v.toModel.unpack := packed_unpack _

/-- A finite double is a number. -/
theorem isNumber_of_isFinite (h : v.isFinite = true) : v.toModel.unpack ≠ .notANumber := by
  intro hv
  have hmodel : v.toModel.unpack.isFinite = true := h
  rw [hv] at hmodel
  cases hmodel

variable (hv : v.toModel.unpack ≠ .notANumber) (hw : w.toModel.unpack ≠ .notANumber)
include hv hw

/-- On numbers the orders are those of the places: not above, -/
theorem le_iff_place : v ≤ w ↔ place v.toModel.unpack ≤ place w.toModel.unpack := by
  rw [le_iff, compare_place (packed v) (packed w) hv hw]
  exact Int.isLE_compare

/-- below -/
theorem lt_iff_place : v < w ↔ place v.toModel.unpack < place w.toModel.unpack := by
  rw [lt_iff, compare_place (packed v) (packed w) hv hw, Option.some_inj, compare_lt_iff_lt]

/-- and equal. -/
theorem beq_iff_place : (v == w) = true ↔ place v.toModel.unpack = place w.toModel.unpack := by
  rw [beq_iff, compare_place (packed v) (packed w) hv hw, Option.some_inj, compare_eq_iff_eq]

end Order

/-- What is compared is a number. -/
theorem isNumber_of_le {v w : Float} (h : v ≤ w) :
    v.toModel.unpack ≠ .notANumber ∧ w.toModel.unpack ≠ .notANumber := by
  rw [le_iff] at h
  refine ⟨fun hv => ?_, fun hw => ?_⟩
  · rw [hv] at h
    cases h
  · rw [hw] at h
    cases hv : v.toModel.unpack <;> rw [hv] at h <;> cases h

/-- The order is transitive where it can be asked for. -/
theorem le_of_le_of_le {u v w : Float} (huv : u ≤ v) (hvw : v ≤ w) : u ≤ w := by
  obtain ⟨hu, hv⟩ := isNumber_of_le huv
  obtain ⟨-, hw⟩ := isNumber_of_le hvw
  rw [le_iff_place hu hw]
  exact ((le_iff_place hu hv).mp huv).trans ((le_iff_place hv hw).mp hvw)

section Strict

variable {u v w : Float}

/-- What is less than something is a number, and so is the greater one. -/
theorem isNumber_of_lt (h : v < w) :
    v.toModel.unpack ≠ .notANumber ∧ w.toModel.unpack ≠ .notANumber := by
  rw [lt_iff] at h
  refine ⟨fun hv => ?_, fun hw => ?_⟩
  · rw [hv] at h
    cases h
  · rw [hw] at h
    cases hv : v.toModel.unpack <;> rw [hv] at h <;> cases h

/-- What is below a smaller one is below the greater, -/
theorem lt_of_lt_of_le (huv : u < v) (hvw : v ≤ w) : u < w := by
  obtain ⟨hu, hv⟩ := isNumber_of_lt huv
  obtain ⟨-, hw⟩ := isNumber_of_le hvw
  rw [lt_iff_place hu hw]
  exact ((lt_iff_place hu hv).mp huv).trans_le ((le_iff_place hv hw).mp hvw)

/-- what is below is not above, -/
theorem le_of_lt (h : v < w) : v ≤ w := by
  obtain ⟨hv, hw⟩ := isNumber_of_lt h
  rw [le_iff_place hv hw]
  exact ((lt_iff_place hv hw).mp h).le

/-- what is not above a smaller one is below what is greater, -/
theorem lt_of_le_of_lt (huv : u ≤ v) (hvw : v < w) : u < w := by
  obtain ⟨hu, hv⟩ := isNumber_of_le huv
  obtain ⟨-, hw⟩ := isNumber_of_lt hvw
  rw [lt_iff_place hu hw]
  exact ((le_iff_place hu hv).mp huv).trans_lt ((lt_iff_place hv hw).mp hvw)

/-- and what is not above is not greater. -/
theorem not_lt_of_le (h : v ≤ w) : ¬w < v := by
  obtain ⟨hv, hw⟩ := isNumber_of_le h
  rw [lt_iff_place hw hv, not_lt]
  exact (le_iff_place hv hw).mp h

/-- Numbers are comparable. -/
theorem not_lt_iff_le (hv : v.toModel.unpack ≠ .notANumber) (hw : w.toModel.unpack ≠ .notANumber) :
    ¬v < w ↔ w ≤ v := by
  rw [lt_iff_place hv hw, le_iff_place hw hv, not_lt]

end Strict

/-! ### Rounding -/

/-- `u` is what the number `x` is rounded to, infinite beyond the range. -/
structure Rounds (x : ℚ) (u : UnpackedFloat) : Prop where
  /-- The result is a number or infinite. -/
  isNumber : u ≠ .notANumber
  /-- Its place is that of the magnitude, on the side of the sign, and none is beyond infinity. -/
  place_eq : ∃ s y r, 0 ≤ y ∧ x = unit s * y ∧ RankOf y r ∧ place u = unit s * (min r beyond : ℕ)

/-- **Rounding keeps the order.** -/
theorem Rounds.mono {x y : ℚ} {u v : UnpackedFloat} (hu : Rounds x u) (hv : Rounds y v)
    (hle : x ≤ y) : place u ≤ place v := by
  obtain ⟨s, a, r, ha, rfl, hr, hplace⟩ := hu.place_eq
  obtain ⟨s', b, r', hb, rfl, hr', hplace'⟩ := hv.place_eq
  rw [hplace, hplace']
  cases s <;> cases s' <;>
    simp only [unit, Int.cast_neg, Int.cast_one, neg_mul, one_mul] at hle ⊢
  · -- below zero the greater number has the smaller magnitude
    have hmin : min r' beyond ≤ min r beyond := min_le_min_right _ (hr'.mono hr (by linarith))
    omega
  · -- a number below zero is before one above
    omega
  · -- both are zero
    have hzero : r ≤ 0 := hr.mono .zero (by linarith)
    have hzero' : r' ≤ 0 := hr'.mono .zero (by linarith)
    omega
  · -- above zero it goes by the magnitudes
    have hmin : min r beyond ≤ min r' beyond := min_le_min_right _ (hr.mono hr' (by linarith))
    omega

/-- **A double is rounded to itself.** -/
theorem Rounds.self {u : UnpackedFloat} (hu : Packed u) (hfin : u.isFinite = true) :
    Rounds (value u) u := by
  cases u with
  | notANumber | infinity => cases hfin
  | zero s => exact ⟨nofun, .positive, 0, 0, le_rfl, (mul_zero _).symm, .zero, rfl⟩
  | finite s m e h =>
    refine ⟨nofun, s, m * 2 ^ e, rank m e, by positivity, rfl, hu.1.rankOf, ?_⟩
    rw [min_eq_left (hu.1.rank_lt hu.2).le]
    rfl

/-- What a rounded number is rounded to again is what it was rounded to. -/
theorem Rounds.trans {x : ℚ} {u v : UnpackedFloat} (hu : Rounds x u) (hp : Packed u)
    (hfin : u.isFinite = true) (hv : Rounds (value u) v) : Rounds x v := by
  have hself := Rounds.self hp hfin
  -- a double is the only thing that it is rounded to
  have hplace : place v = place u := le_antisymm (hv.mono hself le_rfl) (hself.mono hv le_rfl)
  exact ⟨hv.isNumber, hplace ▸ hu.place_eq⟩

section Value

variable {u v : UnpackedFloat}

/-- What is between the infinities is finite. -/
theorem isFinite_of_place (h : u ≠ .notANumber) (hlower : -beyond < place u)
    (hupper : place u < beyond) : u.isFinite = true := by
  -- an infinity would be at one of the ends
  cases u with
  | notANumber => exact absurd rfl h
  | zero | finite => rfl
  | infinity s =>
    cases s
    · change -(beyond : ℤ) < -1 * beyond at hlower
      omega
    · change (1 : ℤ) * beyond < beyond at hupper
      omega

variable (hu : Packed u) (hv : Packed v) (hfin : u.isFinite = true) (hfin' : v.isFinite = true)
include hu hv hfin hfin'

/-- No two numbers have the same place. -/
theorem value_eq_of_place (h : place u = place v) : value u = value v := by
  -- only zeros are in the middle
  have hne {m : ℕ} {e : ℤ} {s : Sign} {hm : 0 < m} (hp : Packed (.finite s m e hm)) :
      place (.finite s m e hm) ≠ 0 := by
    cases s
    · exact hp.place_neg.ne
    · exact hp.place_pos.ne'
  cases u with
  | notANumber | infinity => cases hfin
  | zero s =>
    cases v with
    | notANumber | infinity => cases hfin'
    | zero s' => rfl
    | finite s' m' e' h' => exact absurd h.symm (hne hv)
  | finite s m e hm =>
    cases v with
    | notANumber | infinity => cases hfin'
    | zero s' => exact absurd h (hne hu)
    | finite s' m' e' h' =>
      have hcompare := compare_finite hu hv rfl rfl
      rw [compare_eq_iff_eq.mpr h] at hcompare
      obtain ⟨rfl, rfl, rfl⟩ := eq_of_compare hcompare
      rfl

/-- **Finite doubles are ordered as the numbers that they are.** -/
theorem value_le_iff : value u ≤ value v ↔ place u ≤ place v := by
  have hu' := Rounds.self hu hfin
  have hv' := Rounds.self hv hfin'
  refine ⟨fun h => hu'.mono hv' h, fun h => ?_⟩
  -- the number at the later place would be rounded before the other
  by_contra hlt
  have hback : place v ≤ place u := hv'.mono hu' (le_of_not_ge hlt)
  exact hlt (value_eq_of_place hu hv hfin hfin' (le_antisymm h hback)).le

end Value

/-- **What is rounded to a zero** is half the least double at most. -/
theorem Rounds.place_eq_zero_iff {x : ℚ} {u : UnpackedFloat} (h : Rounds x u) :
    place u = 0 ↔ |x| ≤ 2 ^ (-1075 : ℤ) := by
  obtain ⟨s, y, r, hy, rfl, hr, hplace⟩ := h.place_eq
  have habs : |(unit s : ℚ) * y| = y := by
    rw [abs_mul, abs_of_nonneg hy]
    cases s <;> norm_num [unit]
  have hunit : unit s ≠ 0 := by cases s <;> decide
  have hbeyond : 0 < beyond := by decide
  rw [habs, ← hr.eq_zero_iff, hplace, mul_eq_zero, or_iff_right hunit]
  omega

/-- What is between zero and a finite double is not rounded to infinity. -/
theorem Rounds.isFinite {x : ℚ} {u v : UnpackedFloat} (hu : Rounds x u) (hx : 0 ≤ x)
    (hv : Packed v) (hfin : v.isFinite = true) (hle : x ≤ value v) : u.isFinite = true := by
  have hzero : Rounds 0 (.zero .positive) := .self (u := .zero .positive) trivial rfl
  -- it is rounded to a place between those of zero and of the finite double
  have hlower : 0 ≤ place u := hzero.mono hu hx
  have hupper : place u ≤ place v := hu.mono (.self hv hfin) hle
  have hinfinite : place v < 1 * (beyond : ℤ) := (hv.place_bounds hfin).2
  have hpos : (0 : ℤ) < beyond := by decide
  exact isFinite_of_place hu.isNumber (by omega) (by omega)

end CurvePlot.Double
