import CurvePlot.Landmark
import CurvePlot.Proofs.Double.Fused
/-!
# Reported roots are changes of sign

A scan reports a root between two samples if the product of the values there is not above
zero and they are not both zero. Exactly, that says that the sign changes or one of them is
zero. With doubles it says one thing more (`changesSign_iff`): two values on one side of zero
pass if their product is rounded to zero, which is so if it is at most `2 ^ -1075`
(`Vanishing`, `vanishing_iff`). A function on one side of zero has roots for this reason and
for no other (`OneSided.signChanges_eq_nil_iff`), and small constants do
(`constant_reported`).

The samples ascend (`sampleAt_le`), and a root is placed on the line between two of them. The
share of the width that is added to the place before is at most one, however it is rounded
(`ratio_mem`), so the root is not before the first sample, and not after where the whole
width leads (`interpolated_mem`). That may be behind the second sample, since the width is
rounded too (`root_behind_samples`).
-/

namespace CurvePlot.RootScan

open Double (toRat Rounds)

/-! ### Values at neighbouring samples -/

/-- The two are on different sides of zero. -/
def Opposite (a b : Float) : Prop := (a < 0.0 ∧ 0.0 < b) ∨ (0.0 < a ∧ b < 0.0)

/-- The two are on one side of zero, but their product is rounded to zero. -/
def Vanishing (a b : Float) : Prop :=
  ((0.0 < a ∧ 0.0 < b) ∨ (a < 0.0 ∧ b < 0.0)) ∧ (a * b == 0.0) = true

section Values

variable {a b : Float}

/-- To be below zero is to have a value below zero. -/
theorem lt_zero_iff (ha : a.isFinite = true) : a < 0.0 ↔ toRat a < 0 :=
  Double.lt_iff_toRat ha Double.isFinite_zero

/-- So it is for what is above zero, -/
theorem zero_lt_iff (ha : a.isFinite = true) : 0.0 < a ↔ 0 < toRat a :=
  Double.lt_iff_toRat Double.isFinite_zero ha

/-- and for what is zero, of either sign. -/
theorem beq_zero_iff (ha : a.isFinite = true) : (a == 0.0) = true ↔ toRat a = 0 :=
  Double.beq_iff_toRat ha Double.isFinite_zero

/-- A product is rounded to nothing above zero if it is not above zero, or is rounded to zero. -/
theorem mul_le_zero_iff (ha : a.isFinite = true) (hb : b.isFinite = true) :
    a * b ≤ 0.0 ↔ toRat a * toRat b ≤ 0 ∨ (a * b == 0.0) = true := by
  have hproduct := Double.rounds_float_mul ha hb
  have hzero := Double.rounds_self Double.isFinite_zero
  have hnumber := hproduct.isNumber
  rw [Double.le_iff_place hnumber hzero.isNumber, Double.beq_iff_place hnumber hzero.isNumber]
  constructor
  · -- the exact product is above zero, so the rounded one can only be zero
    intro hle
    rcases le_or_gt (toRat a * toRat b) 0 with hnot | hpos
    · exact .inl hnot
    · exact .inr (le_antisymm hle (hzero.mono hproduct hpos.le))
  · -- rounding is monotone and leaves zero alone
    rintro (hnot | heq)
    · exact hproduct.mono hzero hnot
    · exact heq.le

/-- The signs of two numbers whose product is not above zero, or small enough to pass for it. -/
theorem signs_iff {K : Type} [Field K] [LinearOrder K] [IsStrictOrderedRing K] {x y : K}
    {small : Prop} :
    (x * y ≤ 0 ∨ small) ∧ ¬(x = 0 ∧ y = 0) ↔
      (x < 0 ∧ 0 < y ∨ 0 < x ∧ y < 0) ∨ ¬(x = 0 ↔ y = 0) ∨
        (0 < x ∧ 0 < y ∨ x < 0 ∧ y < 0) ∧ small := by
  -- the numbers are both zero, or one of them alone is, or neither is
  constructor
  · rintro ⟨hproduct, hne⟩
    by_cases hone : (x = 0 ↔ y = 0)
    · have hx : x ≠ 0 := fun hx => hne ⟨hx, hone.mp hx⟩
      have hy : y ≠ 0 := fun hy => hx (hone.mpr hy)
      rcases (mul_ne_zero hx hy).lt_or_gt with hneg | hpos
      · -- neither is zero, so the product has a sign
        exact .inl (mul_neg_iff.mp hneg).symm
      · exact .inr (.inr ⟨mul_pos_iff.mp hpos, hproduct.resolve_left hpos.not_ge⟩)
    · exact .inr (.inl hone)
  · -- the signs differ, one number alone is zero, or the signs agree
    rintro (hopposite | hone | ⟨hsame, hsmall⟩)
    · have hneg : x * y < 0 := mul_neg_iff.mpr hopposite.symm
      refine ⟨.inl hneg.le, fun hzero => hneg.ne ?_⟩
      rw [hzero.1, zero_mul]
    · refine ⟨.inl ?_, fun hzero => hone (iff_of_true hzero.1 hzero.2)⟩
      by_cases hx : x = 0
      · rw [hx, zero_mul]
      · have hy : y = 0 := by
          by_contra hy
          exact hone (iff_of_false hx hy)
        rw [hy, mul_zero]
    · have hpos : 0 < x * y := mul_pos_iff.mpr hsame
      refine ⟨.inr hsmall, fun hzero => hpos.ne' ?_⟩
      rw [hzero.1, zero_mul]

/-- The test for a change of sign, part by part. -/
theorem changesSign_eq_true {α : Type} [Scalar α] {a b : α} : changesSign a b = true ↔
    (Scalar.isFinite b = true ∧ Scalar.isFinite a = true) ∧
      a * b ≤ 0.0 ∧ ¬((a == 0.0) = true ∧ (b == 0.0) = true) := by
  rw [changesSign, Bool.and_eq_true, Bool.and_eq_true, Bool.and_eq_true, decide_eq_true_eq,
    Bool.not_eq_true', Bool.and_eq_false_iff, not_and_or, Bool.not_eq_true, Bool.not_eq_true,
    and_assoc]

/-- The same test on doubles. -/
theorem changesSign_eq : changesSign a b = true ↔ (b.isFinite = true ∧ a.isFinite = true) ∧
    a * b ≤ 0.0 ∧ ¬((a == 0.0) = true ∧ (b == 0.0) = true) :=
  changesSign_eq_true

/-- **What the test for a change of sign accepts:** different signs, one zero, or equal signs whose
product is too small to have one. -/
theorem changesSign_iff : changesSign a b = true ↔ a.isFinite = true ∧ b.isFinite = true ∧
    (Opposite a b ∨ (a == 0.0) ≠ (b == 0.0) ∨ Vanishing a b) := by
  rw [changesSign_eq, and_comm (a := b.isFinite = true), and_assoc]
  refine and_congr_right fun ha => and_congr_right fun hb => ?_
  have hone : (a == 0.0) ≠ (b == 0.0) ↔ ¬(toRat a = 0 ↔ toRat b = 0) := by
    rw [ne_eq, Bool.eq_iff_iff, beq_zero_iff ha, beq_zero_iff hb]
  rw [mul_le_zero_iff ha hb, beq_zero_iff ha, beq_zero_iff hb, signs_iff]
  unfold Opposite Vanishing
  rw [lt_zero_iff ha, lt_zero_iff hb, zero_lt_iff ha, zero_lt_iff hb, hone]

/-- Values on one side of zero only pass the test if they vanish together. -/
theorem changesSign_iff_vanishing (hside : 0.0 < a ∧ 0.0 < b ∨ a < 0.0 ∧ b < 0.0) :
    changesSign a b = true ↔ Vanishing a b := by
  rw [changesSign_iff]
  constructor
  · -- on one side of zero nothing else of the test can be true
    rintro ⟨ha, hb, hsigns⟩
    have hrat := hside
    rw [zero_lt_iff ha, zero_lt_iff hb, lt_zero_iff ha, lt_zero_iff hb, ← mul_pos_iff] at hrat
    -- the signs do not differ
    rcases hsigns with hopposite | hone | hvanish
    · unfold Opposite at hopposite
      rw [zero_lt_iff ha, zero_lt_iff hb, lt_zero_iff ha, lt_zero_iff hb, or_comm,
        ← mul_neg_iff] at hopposite
      exact absurd hopposite hrat.not_gt
    · -- and neither value is zero
      rw [ne_eq, Bool.eq_iff_iff, beq_zero_iff ha, beq_zero_iff hb] at hone
      exact absurd (iff_of_false (left_ne_zero_of_mul hrat.ne') (right_ne_zero_of_mul hrat.ne')) hone
    · exact hvanish
  · intro hvanish
    obtain ⟨ha, hb⟩ := Double.isFinite_of_mul_beq_zero hvanish.2
    exact ⟨ha, hb, .inr (.inr hvanish)⟩

/-- **Values vanish together** if their product is positive and at most half the least double. -/
theorem vanishing_iff (ha : a.isFinite = true) (hb : b.isFinite = true) :
    Vanishing a b ↔ 0 < toRat a * toRat b ∧ toRat a * toRat b ≤ 2 ^ (-1075 : ℤ) := by
  have hproduct := Double.rounds_float_mul ha hb
  have hzero : (a * b == 0.0) = true ↔ |toRat a * toRat b| ≤ 2 ^ (-1075 : ℤ) := by
    rw [Double.beq_iff_place hproduct.isNumber (Double.isNumber_of_isFinite Double.isFinite_zero)]
    exact hproduct.place_eq_zero_iff
  unfold Vanishing
  rw [zero_lt_iff ha, zero_lt_iff hb, lt_zero_iff ha, lt_zero_iff hb, hzero, ← mul_pos_iff]
  refine and_congr_right fun hpos => ?_
  rw [abs_of_pos hpos]

/-- Where between two samples the line through them crosses zero. -/
def ratio (a b : Float) : Float := a.abs / (a.abs + b.abs)

/-- A sum of magnitudes is rounded to nothing below either of them. -/
theorem abs_le_toRat_add (ha : a.isFinite = true) (hb : b.isFinite = true)
    (hfin : (a.abs + b.abs).isFinite = true) :
    |toRat a| ≤ toRat (a.abs + b.abs) ∧ |toRat b| ≤ toRat (a.abs + b.abs) := by
  obtain ⟨habs, hafin⟩ := Double.toRat_abs ha
  obtain ⟨hbabs, hbfin⟩ := Double.toRat_abs hb
  have hle {c : Float} (hc : c.isFinite = true) (h : toRat c ≤ toRat a.abs + toRat b.abs) :
      toRat c ≤ toRat (a.abs + b.abs) := by
    rw [← Double.le_iff_toRat hc hfin]
    exact Double.le_of_rounds (Double.rounds_self hc) (Double.rounds_float_add hafin hbfin) h
  rw [← habs, ← hbabs]
  constructor
  · refine hle hafin (le_add_of_nonneg_right ?_)
    exact hbabs.symm ▸ abs_nonneg (toRat b)
  · refine hle hbfin (le_add_of_nonneg_left ?_)
    exact habs.symm ▸ abs_nonneg (toRat a)

/-- The crossing is between the samples, also if the sum of the values is infinite. -/
theorem ratio_mem (ha : a.isFinite = true) (hb : b.isFinite = true)
    (hne : ¬((a == 0.0) = true ∧ (b == 0.0) = true)) :
    (ratio a b).isFinite = true ∧ 0 ≤ toRat (ratio a b) ∧ toRat (ratio a b) ≤ 1 := by
  obtain ⟨habs, hafin⟩ := Double.toRat_abs ha
  obtain ⟨-, hbfin⟩ := Double.toRat_abs hb
  by_cases hfin : (a.abs + b.abs).isFinite = true
  · obtain ⟨hleft, hright⟩ := abs_le_toRat_add ha hb hfin
    -- a sum that is zero is that of two zeros, which the test does not let through
    have hpos : 0 < toRat (a.abs + b.abs) := by
      by_contra hnot
      have hnone := le_of_not_gt hnot
      refine hne ⟨(beq_zero_iff ha).mpr ?_, (beq_zero_iff hb).mpr ?_⟩
      · exact abs_nonpos_iff.mp (hleft.trans hnone)
      · exact abs_nonpos_iff.mp (hright.trans hnone)
    have hratio : Rounds (toRat a.abs / toRat (a.abs + b.abs)) (ratio a b).toModel.unpack :=
      Double.rounds_float_div hafin hfin hpos.ne'
    -- the share is between zero and one as it is, so it is after rounding
    have hlower : 0 ≤ toRat a.abs / toRat (a.abs + b.abs) := by
      rw [habs]
      exact div_nonneg (abs_nonneg _) hpos.le
    have hupper : toRat a.abs / toRat (a.abs + b.abs) ≤ toRat 1.0 := by
      rw [Double.toRat_one]
      rw [habs]
      exact (div_le_one hpos).mpr hleft
    have hratiofin : (ratio a b).isFinite = true :=
      hratio.isFinite hlower (Double.packed 1.0) Double.isFinite_one hupper
    refine ⟨hratiofin, ?_, ?_⟩
    · rw [← Double.toRat_zero, ← Double.le_iff_toRat Double.isFinite_zero hratiofin]
      exact Double.le_of_rounds (Double.rounds_self Double.isFinite_zero) hratio hlower
    · rw [← Double.toRat_one, ← Double.le_iff_toRat hratiofin Double.isFinite_one]
      exact Double.le_of_rounds hratio (Double.rounds_self Double.isFinite_one) hupper
  · -- an infinite sum divides the value down to zero
    obtain ⟨s, hzero⟩ := Double.unpack_div_infinite hafin hfin
      (Double.rounds_float_add hafin hbfin).isNumber
    have hratio : (ratio a b).toModel.unpack = .zero s := hzero
    have hvalue : toRat (ratio a b) = 0 := by
      rw [toRat, hratio]
      rfl
    rw [hvalue]
    refine ⟨?_, le_rfl, zero_le_one⟩
    show (ratio a b).toModel.unpack.isFinite = true
    rw [hratio]
    rfl

/-- The line through two samples crosses zero not before the first, and not after where the
second is when it is reached from the first. -/
theorem interpolated_mem {x y : Float} (hle : x ≤ y) (hwidth : (y - x).isFinite = true)
    (ha : a.isFinite = true) (hb : b.isFinite = true)
    (hne : ¬((a == 0.0) = true ∧ (b == 0.0) = true)) :
    x ≤ interpolated (x, a) (y, b) ∧ interpolated (x, a) (y, b) ≤ Double.fma 1.0 (y - x) x := by
  obtain ⟨hy, hx⟩ := Double.isFinite_of_sub hwidth
  obtain ⟨ht, hlower, hupper⟩ := ratio_mem ha hb hne
  have hw : 0 ≤ toRat (y - x) := by
    rw [← Double.toRat_zero, ← Double.le_iff_toRat Double.isFinite_zero hwidth]
    refine Double.le_of_rounds (Double.rounds_self Double.isFinite_zero)
      (Double.rounds_float_sub hy hx) ?_
    rw [Double.toRat_zero, sub_nonneg]
    exact (Double.le_iff_toRat hx hy).mp hle
  have hroot : Rounds (toRat (ratio a b) * toRat (y - x) + toRat x)
      (interpolated (x, a) (y, b)).toModel.unpack := Double.rounds_fma ht hwidth hx
  have hend := Double.rounds_fma Double.isFinite_one hwidth hx
  rw [Double.toRat_one, one_mul] at hend
  constructor
  · refine Double.le_of_rounds (Double.rounds_self hx) hroot ?_
    linarith [mul_nonneg hlower hw]
  · refine Double.le_of_rounds hroot hend ?_
    linarith [mul_le_of_le_one_left hw hupper]

end Values

/-! ### Crossings -/

section Crossings

variable {α : Type} [Scalar α]

/-- The crossing between the first two samples comes before those of the samples behind. -/
theorem crossings_range_succ (g : ℕ → α × α) (count : ℕ) :
    crossings ((List.range (count + 1 + 1)).map g) =
      if changesSign (g 0).2 (g 1).2 then
        interpolated (g 0) (g 1) :: crossings ((List.range (count + 1)).map (g ∘ Nat.succ))
      else crossings ((List.range (count + 1)).map (g ∘ Nat.succ)) := by
  rw [List.range_succ_eq_map, List.map_cons, List.map_map, List.range_succ_eq_map, List.map_cons]
  rfl

/-- Reported crossings are those between neighbours. -/
theorem mem_crossings (root : α) (count : ℕ) (g : ℕ → α × α) :
    root ∈ crossings ((List.range (count + 1)).map g) ↔ ∃ i < count,
      changesSign (g i).2 (g (i + 1)).2 = true ∧ root = interpolated (g i) (g (i + 1)) := by
  induction count generalizing g with
  | zero => exact iff_of_false List.not_mem_nil fun ⟨_, hi, _⟩ => Nat.not_lt_zero _ hi
  | succ count ih =>
    -- the first pair, and then the pairs of the list without its head
    have hhead : root ∈ crossings ((List.range (count + 1 + 1)).map g) ↔
        (changesSign (g 0).2 (g 1).2 = true ∧ root = interpolated (g 0) (g 1)) ∨
          root ∈ crossings ((List.range (count + 1)).map (g ∘ Nat.succ)) := by
      rw [crossings_range_succ]
      split
      · next h => rw [List.mem_cons, h, and_iff_right rfl]
      · next h => rw [or_iff_right fun hfirst => h hfirst.1]
    rw [hhead, ih]
    constructor
    · -- the first pair crosses, or one of those behind it
      rintro (hfirst | ⟨i, hi, hcross⟩)
      · exact ⟨0, Nat.succ_pos count, hfirst⟩
      · exact ⟨i + 1, Nat.succ_lt_succ hi, hcross⟩
    · rintro ⟨i, hi, hcross⟩
      cases i with
      | zero => exact .inl hcross
      | succ i => exact .inr ⟨i, Nat.lt_of_succ_lt_succ hi, hcross⟩

end Crossings

/-! ### Samples -/

/-- How many steps a scan takes. -/
def stepCount (min max step : Float) : ℕ := Double.toNat (Double.floor ((max - min) / step))

/-- The place of a sample. -/
def sampleAt (min step : Float) : ℕ → Float
  | 0 => min
  | i + 1 => Double.fma (Float.ofNat (i + 1)) step min

section Samples

variable (min max step : Float) (f : Float → Float)

/-- The samples are the values at the places. -/
theorem samples_eq (count : ℕ) : samples min step count f =
    (List.range (count + 1)).map fun i => (sampleAt min step i, f (sampleAt min step i)) := by
  rw [List.range_succ_eq_map, List.map_cons, List.map_map]
  rfl

/-- Nothing is reported that was not found. -/
theorem mem_of_mem_spaced {gap root : Float} {last : Option Float} {roots : List Float}
    (h : root ∈ spaced gap last roots) : root ∈ roots := by
  -- by induction on the roots that were found
  induction roots generalizing last with
  | nil => cases last <;> exact h
  | cons first rest ih =>
    have hcases : root = first ∨ ∃ last, root ∈ spaced gap last rest := by
      cases last with
      -- the first is always kept
      | none => exact (List.mem_cons.mp h).imp_right fun hrest => ⟨some first, hrest⟩
      | some kept =>
        -- a later one is kept if it is not too near to the one kept before
        rw [spaced] at h
        split at h
        · exact (List.mem_cons.mp h).imp_right fun hrest => ⟨some first, hrest⟩
        · exact .inr ⟨some kept, h⟩
    rcases hcases with rfl | ⟨last, hrest⟩
    · exact List.mem_cons_self
    · exact List.mem_cons_of_mem first (ih hrest)

/-- A sample is at a whole multiple of the step, rounded once. -/
theorem rounds_sampleAt {i : ℕ} (hmin : min.isFinite = true) (hstep : step.isFinite = true)
    (hi : i < 2 ^ 64) : Rounds (toRat (Float.ofNat i) * toRat step + toRat min)
      (sampleAt min step i).toModel.unpack := by
  cases i with
  | zero =>
    have hnone : toRat (Float.ofNat 0) = 0 := rfl
    rw [hnone, zero_mul, zero_add]
    exact Double.rounds_self hmin
  | succ i => exact Double.rounds_fma (Double.isFinite_ofNat hi) hstep hmin

/-- **Samples are taken from left to right.** -/
theorem sampleAt_le {i : ℕ} (hmin : min.isFinite = true) (hstep : step.isFinite = true)
    (hpos : 0.0 < step) (hi : i + 1 < 2 ^ 64) :
    sampleAt min step i ≤ sampleAt min step (i + 1) := by
  have hi' : i < 2 ^ 64 := Nat.lt_of_succ_lt hi
  -- how many steps it is, is rounded alike at both places
  have hcount : toRat (Float.ofNat i) ≤ toRat (Float.ofNat (i + 1)) := by
    rw [← Double.le_iff_toRat (Double.isFinite_ofNat hi') (Double.isFinite_ofNat hi)]
    exact Double.le_of_rounds (Double.rounds_ofNat i) (Double.rounds_ofNat (i + 1))
      (Nat.cast_le.mpr i.le_succ)
  have hwidth : 0 ≤ toRat step := ((zero_lt_iff hstep).mp hpos).le
  refine Double.le_of_rounds (rounds_sampleAt min step hmin hstep hi')
    (rounds_sampleAt min step hmin hstep hi) ?_
  linarith [mul_le_mul_of_nonneg_right hcount hwidth]

end Samples

/-! ### Scans -/

section Scan

variable (min max step : Float) (f : Float → Float)

/-- There is something to scan. -/
def Scanned : Prop :=
  step.isFinite = true ∧ 0.0 < step ∧ min.isFinite = true ∧ min ≤ max

/-- What a scan finds, before roots too near to each other are dropped. -/
theorem signChanges_cases :
    Scanned min max step ∧ signChanges min max step f = spaced (step * 1e-6) none
        (crossings ((List.range (stepCount min max step + 1)).map fun i =>
          (sampleAt min step i, f (sampleAt min step i)))) ∨
      ¬Scanned min max step ∧ signChanges min max step f = [] := by
  have hguard : (step.isFinite && decide (0.0 < step) && min.isFinite && decide (min ≤ max)) = true ↔
      Scanned min max step := by
    rw [Bool.and_eq_true, Bool.and_eq_true, Bool.and_eq_true, decide_eq_true_eq, decide_eq_true_eq,
      and_assoc, and_assoc]
    rfl
  by_cases h : Scanned min max step
  · refine .inl ⟨h, ?_⟩
    rw [← samples_eq]
    exact if_pos (hguard.mpr h)
  · exact .inr ⟨h, if_neg (hguard.not.mpr h)⟩

/-- What a reported root tells about the places before and after it, and about the values there. -/
structure Reported (a b root : Float) : Prop where
  /-- The value before is a number, -/
  finite_left : (f a).isFinite = true
  /-- and so is the value after. -/
  finite_right : (f b).isFinite = true
  /-- The values change their sign, or are too small to tell. -/
  signs : Opposite (f a) (f b) ∨ (f a == 0.0) ≠ (f b == 0.0) ∨ Vanishing (f a) (f b)
  /-- The places are not too far apart to place a root between them. -/
  width : root.isFinite = true → (b - a).isFinite = true
  /-- Then the root is not before the first place. -/
  left : (b - a).isFinite = true → a ≤ root
  /-- The width may have been rounded up. -/
  reach : (b - a).isFinite = true → root ≤ Double.fma 1.0 (b - a) a
  /-- Unless it was, the root is not behind the second place. -/
  right : (b - a).isFinite = true → Double.fma 1.0 (b - a) a ≤ b → root ≤ b

/-- A pair that passes the test reports a root like this. -/
theorem reported_of_changesSign {a b : Float} (hle : a ≤ b)
    (h : changesSign (f a) (f b) = true) : Reported f a b (interpolated (a, f a) (b, f b)) := by
  obtain ⟨hleft, hright, hsigns⟩ := changesSign_iff.mp h
  obtain ⟨-, -, hne⟩ := changesSign_eq.mp h
  have hmem (hwidth : (b - a).isFinite = true) := interpolated_mem hle hwidth hleft hright hne
  exact {
    finite_left := hleft
    finite_right := hright
    signs := hsigns
    width := fun hroot => (Double.isFinite_of_fma hroot).2
    left := fun hwidth => (hmem hwidth).1
    reach := fun hwidth => (hmem hwidth).2
    right := fun hwidth hreach => Double.le_of_le_of_le (hmem hwidth).2 hreach }

/-- The count is a word. -/
theorem stepCount_lt : stepCount min max step < 2 ^ 64 := UInt64.toNat_lt _

/-- **Each root lies between neighbouring samples,** and the values there explain it. -/
theorem reported_of_mem {root : Float} (h : root ∈ signChanges min max step f) :
    ∃ i < stepCount min max step,
      Reported f (sampleAt min step i) (sampleAt min step (i + 1)) root := by
  rcases signChanges_cases min max step f with ⟨⟨hstep, hpos, hmin, -⟩, heq⟩ | ⟨-, heq⟩
  · rw [heq] at h
    obtain ⟨i, hi, hcross, rfl⟩ := (mem_crossings _ _ _).mp (mem_of_mem_spaced h)
    have hcount := stepCount_lt min max step
    have hle := sampleAt_le min step hmin hstep hpos (i := i) (by omega)
    exact ⟨i, hi, reported_of_changesSign f hle hcross⟩
  · rw [heq] at h
    cases h

/-- **A scan finds no root** exactly if it is not made or no pair of neighbours passes the test. -/
theorem signChanges_eq_nil_iff : signChanges min max step f = [] ↔
    ¬(Scanned min max step ∧ ∃ i < stepCount min max step,
      changesSign (f (sampleAt min step i)) (f (sampleAt min step (i + 1))) = true) := by
  rcases signChanges_cases min max step f with ⟨hscan, heq⟩ | ⟨hnot, heq⟩
  · -- where there is a scan, the first crossing is always kept, so it comes to whether there is one
    rw [heq, and_iff_right hscan]
    generalize hfound : crossings ((List.range (stepCount min max step + 1)).map fun i =>
      (sampleAt min step i, f (sampleAt min step i))) = found
    have hspaced : spaced (step * 1e-6) none found = [] ↔ found = [] := by
      cases found with
      | nil => exact iff_of_true rfl rfl
      | cons root rest => exact iff_of_false (List.cons_ne_nil _ _) (List.cons_ne_nil _ _)
    rw [hspaced, List.eq_nil_iff_forall_not_mem]
    have hmem (root : Float) := mem_crossings root (stepCount min max step) fun i =>
      (sampleAt min step i, f (sampleAt min step i))
    rw [hfound] at hmem
    constructor
    · rintro hnone ⟨i, hi, hcross⟩
      exact hnone _ ((hmem _).mpr ⟨i, hi, hcross, rfl⟩)
    · rintro hnone root hroot
      obtain ⟨i, hi, hcross, -⟩ := (hmem root).mp hroot
      exact hnone ⟨i, hi, hcross⟩
  · -- nothing is scanned
    exact iff_of_true heq fun h => hnot h.1

/-- The values at all samples are on one side of zero. -/
def OneSided : Prop :=
  (∀ i ≤ stepCount min max step, 0.0 < f (sampleAt min step i)) ∨
    ∀ i ≤ stepCount min max step, f (sampleAt min step i) < 0.0

/-- Some neighbouring values have a product too small to have a sign. -/
def SomeVanish : Prop :=
  ∃ i < stepCount min max step,
    Vanishing (f (sampleAt min step i)) (f (sampleAt min step (i + 1)))

variable {min max step f}

/-- Values on one side of zero only pass the test if they vanish. -/
theorem OneSided.changesSign_iff (h : OneSided min max step f) {i : ℕ}
    (hi : i < stepCount min max step) :
    changesSign (f (sampleAt min step i)) (f (sampleAt min step (i + 1))) = true ↔
      Vanishing (f (sampleAt min step i)) (f (sampleAt min step (i + 1))) := by
  refine changesSign_iff_vanishing ?_
  rcases h with habove | hbelow
  · exact .inl ⟨habove i hi.le, habove (i + 1) hi⟩
  · exact .inr ⟨hbelow i hi.le, hbelow (i + 1) hi⟩

/-- **A function on one side of zero has no root,** unless neighbouring values vanish. -/
theorem OneSided.signChanges_eq_nil_iff (h : OneSided min max step f) :
    signChanges min max step f = [] ↔ ¬(Scanned min max step ∧ SomeVanish min max step f) := by
  -- whether there is a scan is no matter here; what is found in it is what vanishes
  rw [RootScan.signChanges_eq_nil_iff]
  refine not_congr (and_congr_right fun _ => exists_congr fun i => and_congr_right fun hi => ?_)
  exact h.changesSign_iff hi

end Scan

/-- **Roots are reported where the sign changes.** -/
theorem signChanges_sound (min max step : Float) (f : Float → Float) :
    (∀ root ∈ signChanges min max step f, ∃ i < stepCount min max step,
      Reported f (sampleAt min step i) (sampleAt min step (i + 1)) root) ∧
    (OneSided min max step f →
      (signChanges min max step f = [] ↔ ¬(Scanned min max step ∧ SomeVanish min max step f)) ∧
      (Landmark.xIntercepts min max step f = [] ↔
        ¬(Scanned min max step ∧ SomeVanish min max step f))) ∧
    ∀ g : Float → Float, OneSided min max step (fun x => f x - g x) →
      ¬SomeVanish min max step (fun x => f x - g x) →
        Landmark.intersections min max step f g = [] := by
  refine ⟨fun root hroot => reported_of_mem min max step f hroot, fun h => ?_, fun g h hnone => ?_⟩
  · -- both lists are empty together, as the one is the other with zeros beside it
    refine ⟨h.signChanges_eq_nil_iff, ?_⟩
    rw [Landmark.xIntercepts, List.map_eq_nil_iff]
    exact h.signChanges_eq_nil_iff
  · -- a difference without roots leaves nothing to be intersected
    have hroots := h.signChanges_eq_nil_iff.mpr fun hsome => hnone hsome.2
    rw [Landmark.intersections, hroots]
    rfl

/-- A line is found to cross zero where it does. -/
theorem signChanges_sound_line : (1.0 : Float) ∈ signChanges 0.0 2.0 0.5 (fun x => x - 1.0) ∧
    ∃ i < stepCount 0.0 2.0 0.5, Reported (fun x => x - 1.0) (sampleAt 0.0 0.5 i)
      (sampleAt 0.0 0.5 (i + 1)) 1.0 := by
  have hroots : signChanges 0.0 2.0 0.5 (fun x : Float => x - 1.0) = [1.0] := by decide +kernel
  have hmem : (1.0 : Float) ∈ signChanges 0.0 2.0 0.5 (fun x => x - 1.0) := by
    rw [hroots]
    exact List.mem_singleton_self 1.0
  exact ⟨hmem, (signChanges_sound 0.0 2.0 0.5 fun x => x - 1.0).1 1.0 hmem⟩

/-- **A constant above zero has roots,** if it is small enough: the product of two of its values is
rounded to zero, as if one of them were zero. -/
theorem constant_reported :
    (∀ i ≤ stepCount 0.0 2.0 1.0, (0.0 : Float) < (fun _ => 1e-200) (sampleAt 0.0 1.0 i)) ∧
      signChanges (0.0 : Float) 2.0 1.0 (fun _ => 1e-200) = [0.5, 1.5] := by
  refine ⟨fun _ _ => ?_, ?_⟩
  · show (0.0 : Float) < 1e-200
    decide +kernel
  · decide +kernel

/-- **A root may lie behind all samples:** the width of the last interval is rounded up, and so is
the sum of the place before and the width. -/
theorem root_behind_samples :
    signChanges (-3.375 : Float) 9007199254740991.0 4503599627370497.0
        (fun x => x - 9007199254740991.0) = [9007199254740992.0] ∧
      ∀ i ≤ stepCount (-3.375) 9007199254740991.0 4503599627370497.0,
        sampleAt (-3.375) 4503599627370497.0 i < 9007199254740992.0 := by
  -- that the scan takes two steps is computed once; then each of the three samples is looked at
  have hcount : stepCount (-3.375) 9007199254740991.0 4503599627370497.0 = 2 := by decide +kernel
  refine ⟨by decide +kernel, ?_⟩
  rw [hcount]
  decide +kernel

end CurvePlot.RootScan
