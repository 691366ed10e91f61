import CurvePlot.Proofs.Double.Counts
/-!
# Comparing doubles with zero

A view that comes back to where a contour was traced differs from it by nothing, and
nothing is within any tolerance that is not negative. For doubles this takes some care:
there are two zeros, a product may be rounded to zero or to infinity, and what is no
number is comparable with nothing.

`NonNeg` says which doubles are not below zero (`nonNeg_iff`). They are closed under
products with positive numbers (`zero_le_mul`). The difference of equal finite numbers is
a zero (`abs_sub_le_of_beq`), and a magnitude that is not above a zero is not above
anything that is not below it (`abs_le_of_le_zero`).

Equal numbers are the same but for the sign of a zero (`eq_or_zero_of_compare`), which is
lost when something other than zero is added or taken away (`move_of_beq`).
-/

namespace CurvePlot.Double

open Float.Model (Format UnpackedFloat)
open Float.Model.UnpackedFloat (Sign)

variable {u v w : Float} {s : Sign}

theorem le_iff : v ≤ w ↔ (v.toModel.unpack.compare w.toModel.unpack).any (·.isLE) = true :=
  decide_eq_true_iff

theorem lt_iff : v < w ↔ v.toModel.unpack.compare w.toModel.unpack = some .lt := by
  show decide (v.toModel < w.toModel) = true ↔ _
  rw [decide_eq_true_iff]
  exact beq_iff_eq

theorem beq_iff : (v == w) = true ↔ v.toModel.unpack.compare w.toModel.unpack = some .eq := by
  show (v.toModel.unpack.compare w.toModel.unpack == some .eq) = true ↔ _
  exact beq_iff_eq

theorem unpack_zero : (0.0 : Float).toModel.unpack = .zero .positive := rfl

/-! ### Not below zero -/

/-- A zero of either sign, or what is above. -/
def NonNeg : UnpackedFloat → Prop
  | .notANumber => False
  | .infinity s => s = .positive
  | .zero _ => True
  | .finite s _ _ _ => s = .positive

theorem nonNeg_dite {c : Prop} [Decidable c] {a : c → UnpackedFloat} {b : ¬ c → UnpackedFloat}
    (ha : ∀ h, NonNeg (a h)) (hb : ∀ h, NonNeg (b h)) : NonNeg (dite c a b) := by
  by_cases h : c
  · rw [dif_pos h]
    exact ha h
  · rw [dif_neg h]
    exact hb h

/-- A zero is not above a double exactly if that is not below zero. -/
theorem le_iff_of_zero (hv : v.toModel.unpack = .zero s) : v ≤ w ↔ NonNeg w.toModel.unpack := by
  rw [le_iff, hv]
  cases w.toModel.unpack with
  | notANumber => exact ⟨nofun, False.elim⟩
  | zero s' => exact ⟨fun _ => trivial, fun _ => rfl⟩
  | infinity s' =>
    cases s' with
    | positive => exact ⟨fun _ => rfl, fun _ => rfl⟩
    | negative => exact ⟨nofun, nofun⟩
  | finite s' m e h =>
    cases s' with
    | positive => exact ⟨fun _ => rfl, fun _ => rfl⟩
    | negative => exact ⟨nofun, nofun⟩

theorem nonNeg_iff : (0.0 : Float) ≤ v ↔ NonNeg v.toModel.unpack := le_iff_of_zero unpack_zero

/-- A positive number is above zero and not infinite. -/
theorem finite_of_pos (hfin : v.isFinite = true) (hpos : (0.0 : Float) < v) :
    ∃ m e h, v.toModel.unpack = .finite .positive m e h := by
  have hmodel : v.toModel.unpack.isFinite = true := hfin
  rw [lt_iff, unpack_zero] at hpos
  cases hv : v.toModel.unpack with
  | notANumber => rw [hv] at hmodel; cases hmodel
  | infinity s => rw [hv] at hmodel; cases hmodel
  | zero s => rw [hv] at hpos; cases hpos
  | finite s m e h =>
    rw [hv] at hpos
    cases s with
    | positive => exact ⟨m, e, h, rfl⟩
    | negative => cases hpos

/-- Putting together bits with a plus sign that are not those of an infinity gives
something that is not below zero. -/
theorem nonNeg_packComponents {x : BitVec 11} (y : BitVec 52) (hx : x ≠ -1#11) :
    NonNeg (UnpackedFloat.unpack Format.binary64
      (UnpackedFloat.packComponents Format.binary64 .positive x y)) := by
  have hsign := unpackSign_packComponents .positive x y
  have hexp := unpackExponent_components .positive x y
  rw [unpack_eq]
  dsimp only
  rw [if_neg (hexp.trans_ne hx), hsign]
  exact nonNeg_dite (fun _ => nonNeg_dite (fun _ => trivial) fun _ => rfl) fun _ => rfl

/-- What is not below zero stays so when it is rounded to the range of doubles. -/
theorem nonNeg_pack {a : UnpackedFloat} (ha : NonNeg a) :
    NonNeg (UnpackedFloat.unpack Format.binary64 (UnpackedFloat.pack Format.binary64 a)) := by
  cases a with
  | notANumber => exact ha.elim
  | infinity s =>
    obtain rfl : s = .positive := ha
    rfl
  | zero s =>
    rw [unpack_pack_zero]
    trivial
  | finite s m e h =>
    obtain rfl : s = .positive := ha
    rw [pack_finite]
    split
    · -- beyond the range
      rfl
    · next hrange =>
      split
      · refine nonNeg_packComponents _ fun hmax => ?_
        have hfield := congrArg BitVec.toNat hmax
        rw [BitVec.toNat_ofNat] at hfield
        have hones : (-1#11).toNat = 2047 := rfl
        omega
      · exact nonNeg_packComponents _ (by decide)

/-- **A product with a positive number is not below zero,** if the other factor is not. -/
theorem zero_le_mul (hv : (0.0 : Float) ≤ v) (hfin : w.isFinite = true) (hw : (0.0 : Float) < w) :
    (0.0 : Float) ≤ v * w := by
  obtain ⟨m, e, h, hw⟩ := finite_of_pos hfin hw
  rw [nonNeg_iff] at hv ⊢
  refine nonNeg_pack ?_
  show NonNeg (UnpackedFloat.mul Format.binary64 v.toModel.unpack w.toModel.unpack)
  rw [hw]
  cases hunpacked : v.toModel.unpack with
  | notANumber => rw [hunpacked] at hv; exact hv.elim
  | infinity s =>
    rw [hunpacked] at hv
    obtain rfl : s = .positive := hv
    rfl
  | zero s => trivial
  | finite s k f hk =>
    rw [hunpacked] at hv
    obtain rfl : s = .positive := hv
    -- the product is rounded, perhaps to zero, and keeps its sign
    show NonNeg (UnpackedFloat.roundWithAccuracy Format.binary64 .positive (k * m) (f + e) .exact)
    exact nonNeg_dite (fun _ => trivial) fun _ => rfl

/-- A zero times a finite number is a zero. -/
theorem unpack_zero_mul (hv : v.toModel.unpack = .zero s) (hfin : w.isFinite = true) :
    ∃ s', (v * w).toModel.unpack = .zero s' := by
  have hmodel : w.toModel.unpack.isFinite = true := hfin
  have hproduct : ∃ s', UnpackedFloat.mul Format.binary64 v.toModel.unpack w.toModel.unpack =
      .zero s' := by
    rw [hv]
    cases hw : w.toModel.unpack with
    | notANumber | infinity t =>
      rw [hw] at hmodel
      cases hmodel
    | zero t | finite t m e h => exact ⟨_, rfl⟩
  obtain ⟨s', hproduct⟩ := hproduct
  refine ⟨s', ?_⟩
  show UnpackedFloat.unpack Format.binary64 (UnpackedFloat.pack Format.binary64
    (UnpackedFloat.mul Format.binary64 v.toModel.unpack w.toModel.unpack)) = _
  rw [hproduct]
  exact unpack_pack_zero _

/-- Nothing of a finite span is not below zero. -/
theorem zero_le_zero_mul (hfin : w.isFinite = true) : (0.0 : Float) ≤ 0.0 * w := by
  obtain ⟨s, hzero⟩ := unpack_zero_mul unpack_zero hfin
  rw [nonNeg_iff, hzero]
  trivial

/-- What is divided by something that is no number is no number, and so not finite. -/
theorem ne_notANumber_of_div (h : (v / w).isFinite = true) :
    w.toModel.unpack ≠ .notANumber := by
  intro hw
  have hdiv : UnpackedFloat.div Format.binary64 v.toModel.unpack .notANumber = .notANumber := by
    cases v.toModel.unpack <;> rfl
  have hfin : (UnpackedFloat.unpack Format.binary64 (UnpackedFloat.pack Format.binary64
      (UnpackedFloat.div Format.binary64 v.toModel.unpack w.toModel.unpack))).isFinite = true := h
  rw [hw, hdiv] at hfin
  cases hfin

/-! ### Equal numbers and magnitudes -/

theorem unpack_abs_of_zero (hv : v.toModel.unpack = .zero s) :
    v.abs.toModel.unpack = .zero .positive := by
  show UnpackedFloat.unpack Format.binary64
    (UnpackedFloat.pack Format.binary64 v.toModel.unpack.abs) = _
  rw [hv]
  exact unpack_pack_zero .positive

/-- **A magnitude that is not above a zero is not above anything that is not below it.** -/
theorem abs_le_of_le_zero (hu : u.toModel.unpack = .zero s) (hv : v.abs ≤ u)
    (hw : (0.0 : Float) ≤ w) : v.abs ≤ w := by
  have habs : v.abs.toModel.unpack = UnpackedFloat.unpack Format.binary64
      (UnpackedFloat.pack Format.binary64 v.toModel.unpack.abs) := rfl
  rw [le_iff, hu] at hv
  cases hunpacked : v.toModel.unpack with
  | zero s' => exact (le_iff_of_zero (unpack_abs_of_zero hunpacked)).mpr (nonNeg_iff.mp hw)
  | finite s' m e h =>
    rw [unpack_abs hunpacked] at hv
    cases hv
  | notANumber =>
    have hnone : v.abs.toModel.unpack = .notANumber := by
      rw [habs, hunpacked]
      rfl
    rw [hnone] at hv
    cases hv
  | infinity s' =>
    have hplus : UnpackedFloat.unpack Format.binary64
        (UnpackedFloat.pack Format.binary64 (.infinity .positive)) = .infinity .positive := rfl
    have hinfinite : v.abs.toModel.unpack = .infinity .positive := by
      rw [habs, hunpacked]
      exact hplus
    rw [hinfinite] at hv
    cases hv

/-- A number equals itself. -/
theorem beq_self (h : v.toModel.unpack ≠ .notANumber) : (v == v) = true := by
  rw [beq_iff]
  cases hv : v.toModel.unpack with
  | notANumber => exact absurd hv h
  | infinity s => cases s <;> rfl
  | zero s => rfl
  | finite s m e h =>
    have hsame : (compare e e).then (compare m m) = .eq := by
      rw [compare_eq_iff_eq.mpr rfl, compare_eq_iff_eq.mpr rfl]
      rfl
    cases s with
    | positive => exact congrArg some hsame
    | negative => exact congrArg (fun o => some (Ordering.swap o)) hsame

theorem beq_self_of_isFinite (h : v.isFinite = true) : (v == v) = true := by
  refine beq_self fun hv => ?_
  have hmodel : v.toModel.unpack.isFinite = true := h
  rw [hv] at hmodel
  cases hmodel

theorem eq_of_compare {s s' : Sign} {m m' : Nat} {e e' : Int} {hm : 0 < m} {hm' : 0 < m'}
    (h : (UnpackedFloat.finite s m e hm).compare (.finite s' m' e' hm') = some .eq) :
    s = s' ∧ m = m' ∧ e = e' := by
  have hboth : (compare e e').then (compare m m') = .eq → m = m' ∧ e = e' := by
    intro heq
    rw [Ordering.then_eq_eq, compare_eq_iff_eq, compare_eq_iff_eq] at heq
    exact heq.symm
  cases s with
  | positive =>
    cases s' with
    | positive => exact ⟨rfl, hboth (Option.some.inj h)⟩
    | negative => cases h
  | negative =>
    cases s' with
    | positive => cases h
    | negative => exact ⟨rfl, hboth (Ordering.swap_eq_eq.mp (Option.some.inj h))⟩

theorem sub_self_finite (s : Sign) (m : Nat) (e : Int) (hm : 0 < m) :
    UnpackedFloat.sub Format.binary64 (.finite s m e hm) (.finite s m e hm) = .zero .positive := by
  show UnpackedFloat.normalize Format.binary64 (_ - _) _ .positive = _
  rw [Int.sub_self]
  rfl

/-- The difference of numbers that compare as equal is a zero, unless they are infinite. -/
theorem sub_of_compare {a b : UnpackedFloat} (hb : b.isFinite = true)
    (h : a.compare b = some .eq) : ∃ s, a.sub Format.binary64 b = .zero s := by
  cases b with
  | notANumber => cases hb
  | infinity s' => cases hb
  | zero s' =>
    -- the zeros may have different signs
    cases a with
    | zero s => cases s <;> cases s' <;> exact ⟨_, rfl⟩
    | notANumber => cases h
    | infinity s => cases s <;> cases h
    | finite s m e hm => cases s <;> cases h
  | finite s' m' e' hm' =>
    cases a with
    | finite s m e hm =>
      obtain ⟨rfl, rfl, rfl⟩ := eq_of_compare h
      exact ⟨_, sub_self_finite s m e hm⟩
    | notANumber => cases h
    | infinity s => cases s <;> cases h
    | zero s => cases s' <;> cases h

/-- What is left of a finite number when an equal one is taken away is a zero. -/
theorem unpack_sub_of_beq (hfin : v.isFinite = true) (h : (u == v) = true) :
    ∃ s, (u - v).toModel.unpack = .zero s := by
  obtain ⟨s, hsub⟩ := sub_of_compare hfin (beq_iff.mp h)
  refine ⟨s, ?_⟩
  show UnpackedFloat.unpack Format.binary64 (UnpackedFloat.pack Format.binary64
    (u.toModel.unpack.sub Format.binary64 v.toModel.unpack)) = _
  rw [hsub]
  exact unpack_pack_zero s

/-- **Equal finite numbers are no further apart than anything that is not below zero.** -/
theorem abs_sub_le_of_beq (hfin : v.isFinite = true) (h : (u == v) = true)
    (hw : (0.0 : Float) ≤ w) : (u - v).abs ≤ w := by
  obtain ⟨s, hzero⟩ := unpack_sub_of_beq hfin h
  exact (le_iff_of_zero (unpack_abs_of_zero hzero)).mpr (nonNeg_iff.mp hw)

/-- **What compares as equal is the same,** except that a zero may have either sign. -/
theorem eq_or_zero_of_compare {a b : UnpackedFloat} (h : a.compare b = some .eq) :
    a = b ∨ ∃ s s', a = .zero s ∧ b = .zero s' := by
  cases a with
  | notANumber => cases h
  | infinity s =>
    cases b with
    | infinity s' => cases s <;> cases s' <;> first | exact .inl rfl | cases h
    | notANumber | zero s' | finite s' m' e' hm' => cases s <;> cases h
  | zero s =>
    cases b with
    | zero s' => exact .inr ⟨s, s', rfl, rfl⟩
    | notANumber => cases h
    | infinity s' | finite s' m' e' hm' => cases s' <;> cases h
  | finite s m e hm =>
    cases b with
    | finite s' m' e' hm' =>
      obtain ⟨rfl, rfl, rfl⟩ := eq_of_compare h
      exact .inl rfl
    | notANumber | zero s' => cases s <;> cases h
    | infinity s' => cases s <;> cases s' <;> cases h

/-- Whether a number is a zero of either sign. -/
def IsZero (a : UnpackedFloat) : Prop := ∃ s, a = .zero s

theorem unpack_eq_of_beq (h : (u == v) = true) (hv : ¬IsZero v.toModel.unpack) :
    u.toModel.unpack = v.toModel.unpack :=
  (eq_or_zero_of_compare (beq_iff.mp h)).resolve_right fun ⟨_, s, _, hs⟩ => hv ⟨s, hs⟩

theorem not_isZero_of_pos (hpos : (0.0 : Float) < v) : ¬IsZero v.toModel.unpack := by
  rintro ⟨s, hs⟩
  rw [lt_iff, hs] at hpos
  cases hpos

theorem div_of_unpack {u' v' : Float} (hu : u.toModel.unpack = u'.toModel.unpack)
    (hv : v.toModel.unpack = v'.toModel.unpack) : u / v = u' / v' := by
  show Float.ofModel (.pack (UnpackedFloat.div Format.binary64 u.toModel.unpack
    v.toModel.unpack)) = _
  rw [hu, hv]
  rfl

/-- What is divided by a zero is not finite. -/
theorem not_isZero_of_div (h : (v / w).isFinite = true) : ¬IsZero w.toModel.unpack := by
  rintro ⟨s, hs⟩
  have hdiv : UnpackedFloat.div Format.binary64 v.toModel.unpack (.zero s) = .notANumber ∨
      ∃ t, UnpackedFloat.div Format.binary64 v.toModel.unpack (.zero s) = .infinity t := by
    cases v.toModel.unpack with
    | notANumber | zero t => exact .inl rfl
    | infinity t | finite t m e hm => exact .inr ⟨_, rfl⟩
  have hfin : (UnpackedFloat.unpack Format.binary64 (UnpackedFloat.pack Format.binary64
      (UnpackedFloat.div Format.binary64 v.toModel.unpack w.toModel.unpack))).isFinite = true := h
  rw [hs] at hfin
  rcases hdiv with hdiv | ⟨t, hdiv⟩
  · rw [hdiv] at hfin
    cases hfin
  · rw [hdiv] at hfin
    cases t <;> cases hfin

/-- **Equal numbers are moved to the same place** by anything that is not zero. -/
theorem move_of_beq (h : (u == v) = true) (hw : ¬IsZero w.toModel.unpack) :
    u - w = v - w ∧ u + w = v + w := by
  suffices hboth : UnpackedFloat.sub Format.binary64 u.toModel.unpack w.toModel.unpack =
        UnpackedFloat.sub Format.binary64 v.toModel.unpack w.toModel.unpack ∧
      UnpackedFloat.add Format.binary64 u.toModel.unpack w.toModel.unpack =
        UnpackedFloat.add Format.binary64 v.toModel.unpack w.toModel.unpack from
    ⟨congrArg (fun a => Float.ofModel (.pack a)) hboth.1,
      congrArg (fun a => Float.ofModel (.pack a)) hboth.2⟩
  rcases eq_or_zero_of_compare (beq_iff.mp h) with hsame | ⟨s, s', hu, hv⟩
  · rw [hsame]
    exact ⟨rfl, rfl⟩
  · -- the sign of a zero does not show in what is not a zero
    rw [hu, hv]
    cases hunpacked : w.toModel.unpack with
    | zero t => exact absurd ⟨t, hunpacked⟩ hw
    | notANumber | infinity t | finite t m e hm => exact ⟨rfl, rfl⟩

end CurvePlot.Double
