import CurvePlot.Proofs.Exact
import CurvePlot.Proofs.Roots
/-!
# Roots in exact arithmetic

Where nothing is rounded, a scan reports a root near every change of sign and none elsewhere,
in ascending order and at a distance from each other (`signChanges_exact`).

Two things are put together. The crossings of a scan ascend, since each of them lies between its
two samples (`Crosses.crossing_mem`) and the samples ascend (`crossings_ascend`). And a list that
ascends is thinned without loss: what is dropped lies near the root that was kept last, which is
the nearest of those before it (`Thinned`, `exists_thinned`).

A sample that is exactly zero is the crossing of both its intervals. The first of the two is
kept, as every earlier root is at least a whole step away, and the second is dropped.
-/

namespace CurvePlot.RootScan

open Exact (number undefined)

/-! ### Where a line crosses zero -/

/-- The values have strictly different signs, or exactly one of them is zero. -/
def Crosses (u v : ℝ) : Prop := (u < 0 ∧ 0 < v ∨ 0 < u ∧ v < 0) ∨ ¬(u = 0 ↔ v = 0)

/-- Where the line through `(x, u)` and `(y, v)` crosses zero. -/
noncomputable def crossing (x y u v : ℝ) : ℝ := x + (y - x) * (u / (u - v))

section Line

variable {x y u v : ℝ} {a b : Exact}

/-- The share of the width before the crossing is that of the first magnitude in both. -/
theorem Crosses.abs_div (h : Crosses u v) : 0 < |u| + |v| ∧ |u| / (|u| + |v|) = u / (u - v) := by
  rcases h with (⟨hu, hv⟩ | ⟨hu, hv⟩) | hone
  · -- both magnitudes are the difference of the values, turned over
    rw [abs_of_neg hu, abs_of_pos hv]
    refine ⟨by linarith, ?_⟩
    have hturned : -u + v = -(u - v) := by ring
    rw [hturned, neg_div_neg_eq]
  · rw [abs_of_pos hu, abs_of_neg hv, ← sub_eq_add_neg]
    exact ⟨by linarith, rfl⟩
  · by_cases hu : u = 0
    · -- the left end is zero, and the share is nothing
      have hv : v ≠ 0 := fun hv => hone (iff_of_true hu hv)
      rw [hu, abs_zero, zero_add, zero_div, zero_div]
      exact ⟨abs_pos.mpr hv, rfl⟩
    · -- the right end is zero, and the share is the whole width
      have hv : v = 0 := by
        by_contra hv
        exact hone (iff_of_false hu hv)
      rw [hv, abs_zero, add_zero, sub_zero, div_self (abs_ne_zero.mpr hu), div_self hu]
      exact ⟨abs_pos.mpr hu, rfl⟩

/-- **A crossing lies between its samples.** -/
theorem Crosses.crossing_mem (h : Crosses u v) (hle : x ≤ y) :
    x ≤ crossing x y u v ∧ crossing x y u v ≤ y := by
  obtain ⟨hpos, hshare⟩ := h.abs_div
  have hlower : 0 ≤ u / (u - v) := by
    rw [← hshare]
    exact div_nonneg (abs_nonneg u) hpos.le
  have hupper : u / (u - v) ≤ 1 := by
    rw [← hshare, div_le_one hpos]
    exact le_add_of_nonneg_right (abs_nonneg v)
  have hwidth : 0 ≤ y - x := sub_nonneg.mpr hle
  unfold crossing
  constructor
  · linarith [mul_nonneg hwidth hlower]
  · linarith [mul_le_of_le_one_right hwidth hupper]

/-- A zero at the left end is the crossing, -/
theorem crossing_zero_left (x y v : ℝ) : crossing x y 0 v = x := by
  rw [crossing, zero_div, mul_zero, add_zero]

/-- and so is one at the right end. -/
theorem crossing_zero_right (x y : ℝ) (hu : u ≠ 0) : crossing x y u 0 = y := by
  rw [crossing, sub_zero, div_self hu, mul_one, add_sub_cancel]

/-- Exactly, the test for a change of sign is one. -/
theorem changesSign_exact :
    changesSign a b = true ↔ ∃ u v, a = number u ∧ b = number v ∧ Crosses u v := by
  have hnumbers (u v : ℝ) : changesSign (number u) (number v) = true ↔ Crosses u v := by
    have hzero (r : ℝ) : (number r == 0.0) = true ↔ r = 0 := by
      rw [Exact.zero_literal]
      exact decide_eq_true_iff
    have hsigns := @signs_iff ℝ _ _ _ u v False
    rw [or_false, and_false, or_false] at hsigns
    rw [changesSign_eq_true, and_iff_right ⟨rfl, rfl⟩, hzero, hzero, Exact.number_mul,
      Exact.zero_literal, Exact.number_le]
    exact hsigns
  constructor
  · intro h
    obtain ⟨⟨hb, ha⟩, -⟩ := changesSign_eq_true.mp h
    rcases a with _ | u
    case undefined => cases ha
    rcases b with _ | v
    case undefined => cases hb
    exact ⟨u, v, rfl, rfl, (hnumbers u v).mp h⟩
  · rintro ⟨u, v, rfl, rfl, h⟩
    exact (hnumbers u v).mpr h

/-- The test passed, so the crossing is a number. -/
theorem interpolated_exact (h : Crosses u v) :
    interpolated (number x, number u) (number y, number v) = number (crossing x y u v) := by
  obtain ⟨hpos, hshare⟩ := h.abs_div
  have hratio : number |u| / number (|u| + |v|) = number (u / (u - v)) := by
    rw [Exact.number_div _ _ hpos.ne', hshare]
  calc interpolated (number x, number u) (number y, number v)
      = Scalar.fma (number |u| / number (|u| + |v|)) (number (y - x)) (number x) := rfl
    _ = Scalar.fma (number (u / (u - v))) (number (y - x)) (number x) := by rw [hratio]
    _ = number (u / (u - v) * (y - x) + x) := rfl
    _ = number (crossing x y u v) := by rw [crossing, mul_comm, add_comm]

end Line

/-! ### Thinning -/

/-- **What is left of an ascending list** if values not more than `gap` behind the last one kept
are dropped. -/
structure Thinned (gap : ℝ) (found kept : List ℝ) : Prop where
  /-- Nothing is added, and the order stays. -/
  sublist : kept.Sublist found
  /-- What is kept is farther apart than the gap. -/
  apart : kept.Pairwise fun a b => gap < b - a
  /-- What was dropped lies shortly behind something kept. -/
  near : ∀ r ∈ found, ∃ k ∈ kept, k ≤ r ∧ r - k ≤ gap

section Thinning

variable {gap last r : ℝ} {found kept rest : List ℝ}

/-- A value farther than `gap` behind the last one is kept, and what comes later is even farther
from the last one. -/
theorem Thinned.keep (h : Thinned gap (r :: rest) (r :: kept))
    (hgap : 0 ≤ gap) (hascend : (r :: rest).Pairwise (· ≤ ·)) (hfar : gap < r - last) :
    Thinned gap (last :: r :: rest) (last :: r :: kept) where
  sublist := h.sublist.cons_cons last
  apart := by
    refine List.pairwise_cons.mpr ⟨fun b hb => ?_, h.apart⟩
    -- the kept ones come from an ascending list, so none of them is nearer than the first
    have hrb : r ≤ b := by
      rcases List.mem_cons.mp (h.sublist.subset hb) with rfl | hb'
      · exact le_rfl
      · exact List.rel_of_pairwise_cons hascend hb'
    linarith
  near s hs := by
    rcases List.mem_cons.mp hs with rfl | hs'
    · -- the last one stands for itself
      exact ⟨s, List.mem_cons_self, le_rfl, by rwa [sub_self]⟩
    · obtain ⟨k, hk, hnear⟩ := h.near s hs'
      exact ⟨k, List.mem_cons_of_mem last hk, hnear⟩

/-- A nearer one is dropped, as the last one kept may stand for it. -/
theorem Thinned.drop (h : Thinned gap (last :: rest) (last :: kept)) (hle : last ≤ r)
    (hnear : r - last ≤ gap) : Thinned gap (last :: r :: rest) (last :: kept) where
  sublist := h.sublist.trans ((List.sublist_cons_self r rest).cons_cons last)
  apart := h.apart
  near s hs := by
    by_cases hsr : s = r
    · -- the dropped one stands behind the last
      exact ⟨last, List.mem_cons_self, hsr ▸ hle, hsr ▸ hnear⟩
    · refine h.near s ?_
      rcases List.mem_cons.mp hs with rfl | hs'
      · exact List.mem_cons_self
      · exact List.mem_cons_of_mem last ((List.mem_cons.mp hs').resolve_left hsr)

/-- **The roots that are not too near** are what thinning leaves. The root that was kept last
counts as the first of the list. -/
theorem exists_thinned (hgap : 0 ≤ gap) (hascend : (last :: found).Pairwise (· ≤ ·)) :
    ∃ kept, spaced (number gap) (some (number last)) (found.map number) = kept.map number ∧
      Thinned gap (last :: found) (last :: kept) := by
  -- by induction on what was found, each time behind the one kept last
  induction found generalizing last with
  | nil =>
    refine ⟨[], rfl, .refl _, List.pairwise_singleton _ _, fun r hr => ?_⟩
    obtain rfl := List.mem_singleton.mp hr
    exact ⟨r, List.mem_singleton_self r, le_rfl, by rwa [sub_self]⟩
  | cons r rest ih =>
    have hle : last ≤ r := List.rel_of_pairwise_cons hascend List.mem_cons_self
    have hrest : (r :: rest).Pairwise (· ≤ ·) := hascend.of_cons
    rw [List.map_cons, spaced]
    have hfar : number gap < Scalar.abs (number r - number last) ↔ gap < r - last := by
      have habs : Scalar.abs (number r - number last) = number |r - last| := rfl
      rw [habs, Exact.number_lt, abs_of_nonneg (sub_nonneg.mpr hle)]
    split
    · -- far enough from the last one: it is kept, and counts as the last from here on
      next hkeep =>
      obtain ⟨kept, heq, hthin⟩ := ih hrest
      exact ⟨r :: kept, by rw [heq, List.map_cons], hthin.keep hgap hrest (hfar.mp hkeep)⟩
    · -- too near: the last one stands for it
      next hdrop =>
      have hwithout : (last :: rest).Pairwise (· ≤ ·) :=
        hascend.sublist ((List.sublist_cons_self r rest).cons_cons last)
      obtain ⟨kept, heq, hthin⟩ := ih hwithout
      exact ⟨kept, heq, hthin.drop hle (not_lt.mp (hfar.not.mp hdrop))⟩

end Thinning

/-! ### A scan -/

/-- The place of a sample. -/
def gridAt (min step : ℝ) (i : ℕ) : ℝ := min + i * step

/-- **Between two neighbouring samples is a crossing:** both are defined, they have different signs
or one of them is zero, and the line through them crosses zero at `c`. -/
def Crossed (f : Exact → Exact) (x y c : ℝ) : Prop :=
  ∃ u v, f (number x) = number u ∧ f (number y) = number v ∧ Crosses u v ∧ c = crossing x y u v

section Scan

variable {f : Exact → Exact} {min max step : ℝ}

/-- A zero at the right end of an interval is a crossing, if the left end is none. -/
theorem crossed_of_zero {x y u : ℝ} (hleft : f (number x) = number u)
    (hzero : f (number y) = number 0) (hu : u ≠ 0) : Crossed f x y y :=
  ⟨u, 0, hleft, hzero, .inr fun h => hu (h.mpr rfl), (crossing_zero_right x y hu).symm⟩

/-- From a sample to the next it is one step. -/
theorem gridAt_succ (min step : ℝ) (i : ℕ) :
    gridAt min step (i + 1) = gridAt min step i + step := by
  unfold gridAt
  push_cast
  ring

/-- Samples ascend. -/
theorem gridAt_le_gridAt (hstep : 0 < step) {i j : ℕ} (h : i ≤ j) :
    gridAt min step i ≤ gridAt min step j := by
  have hcast : (i : ℝ) ≤ j := Nat.cast_le.mpr h
  unfold gridAt
  linarith [mul_le_mul_of_nonneg_right hcast hstep.le]

/-- A crossing lies between its two samples. -/
theorem Crossed.mem {x y c : ℝ} (h : Crossed f x y c) (hle : x ≤ y) : x ≤ c ∧ c ≤ y := by
  obtain ⟨u, v, -, -, hcross, rfl⟩ := h
  exact hcross.crossing_mem hle

/-- A sample that is zero is where its intervals cross zero. -/
theorem Crossed.eq_right {x y c : ℝ} (h : Crossed f x y c) (hy : f (number y) = number 0) :
    c = y := by
  obtain ⟨u, v, -, hv, hcross, rfl⟩ := h
  obtain rfl : v = 0 := Exact.number.inj (hv.symm.trans hy)
  refine crossing_zero_right x y fun hu => ?_
  -- with a zero on the right, the left end cannot be zero too
  rcases hcross with (⟨-, hv⟩ | ⟨-, hv⟩) | hone
  · exact lt_irrefl 0 hv
  · exact lt_irrefl 0 hv
  · exact hone (iff_of_true hu rfl)

/-- The same holds of a zero at the left end. -/
theorem Crossed.eq_left {x y c : ℝ} (h : Crossed f x y c) (hx : f (number x) = number 0) :
    c = x := by
  obtain ⟨u, v, hu, -, -, rfl⟩ := h
  obtain rfl : u = 0 := Exact.number.inj (hu.symm.trans hx)
  exact crossing_zero_left x y v

/-- **Only the two intervals that a sample ends reach so near to it,** so a sample that is zero is
the only crossing there. -/
theorem Crossed.eq_of_near {i j : ℕ} {c : ℝ}
    (h : Crossed f (gridAt min step j) (gridAt min step (j + 1)) c) (hstep : 0 < step)
    (hzero : f (number (gridAt min step (i + 1))) = number 0)
    (hnear : |c - gridAt min step (i + 1)| < step) : c = gridAt min step (i + 1) := by
  obtain ⟨hafter, hbefore⟩ := h.mem (gridAt_le_gridAt hstep j.le_succ)
  obtain ⟨hlower, hupper⟩ := abs_lt.mp hnear
  -- an interval that ends before the sample is a whole step away
  have hfirst : i ≤ j := by
    by_contra hlt
    have hearlier := @gridAt_le_gridAt min step hstep _ _ (not_le.mp hlt)
    linarith [gridAt_succ min step i]
  -- and so is one that begins behind it
  have hlast : j ≤ i + 1 := by
    by_contra hlt
    have hlater := @gridAt_le_gridAt min step hstep _ _ (not_le.mp hlt)
    linarith [gridAt_succ min step (i + 1)]
  obtain rfl | rfl : j = i ∨ j = i + 1 := by omega
  · exact h.eq_right hzero
  · exact h.eq_left hzero

/-- Samples are taken at the steps, none of them rounded. -/
theorem samples_exact (count : ℕ) : samples (number min) (number step) count f =
    (List.range (count + 1)).map fun i =>
      (number (gridAt min step i), f (number (gridAt min step i))) := by
  have hfirst : gridAt min step 0 = min := by
    rw [gridAt, Nat.cast_zero, zero_mul, add_zero]
  have hplace (i : ℕ) : Scalar.fma (Scalar.ofNat (i + 1)) (number step) (number min) =
      number (gridAt min step (i + 1)) := by
    have hfma : Scalar.fma (Scalar.ofNat (i + 1)) (number step) (number min) =
        number ((((i + 1 : ℕ) : ℤ) : ℝ) * step + min) := rfl
    rw [hfma, gridAt, Int.cast_natCast, add_comm]
  rw [samples, List.range_succ_eq_map, List.map_cons, List.map_map, hfirst]
  refine congrArg _ (List.map_congr_left fun i _ => ?_)
  show (_, f _) = (_, f _)
  rw [hplace]

/-- What is found between neighbouring places, before it is thinned. -/
theorem mem_crossings_exact {x : ℕ → ℝ} {root : Exact} {count : ℕ} :
    root ∈ crossings ((List.range (count + 1)).map fun i => (number (x i), f (number (x i)))) ↔
      ∃ i < count, ∃ c, root = number c ∧ Crossed f (x i) (x (i + 1)) c := by
  rw [mem_crossings]
  -- per interval, the test and the place are those of the crossing
  refine exists_congr fun i => and_congr_right fun _ => ?_
  constructor
  · rintro ⟨hsign, rfl⟩
    obtain ⟨u, v, hu, hv, hcross⟩ := changesSign_exact.mp hsign
    dsimp only at hu hv ⊢
    rw [hu, hv]
    exact ⟨_, interpolated_exact hcross, u, v, hu, hv, hcross, rfl⟩
  · rintro ⟨c, rfl, u, v, hu, hv, hcross, rfl⟩
    dsimp only
    rw [hu, hv]
    exact ⟨changesSign_exact.mpr ⟨u, v, rfl, rfl, hcross⟩, (interpolated_exact hcross).symm⟩

/-- **Crossings are found from left to right.** -/
theorem crossings_ascend {x : ℕ → ℝ} (hx : Monotone x) (count : ℕ) :
    (crossings ((List.range (count + 1)).map fun i => (number (x i), f (number (x i))))).Pairwise
      (· ≤ ·) := by
  -- by induction on the samples, the first interval against all others
  induction count generalizing x with
  | zero => exact .nil
  | succ count ih =>
    have hrest := ih (hx.comp Order.succ_mono)
    rw [crossings_range_succ]
    split
    · next hsign =>
      refine List.pairwise_cons.mpr ⟨fun root hroot => ?_, hrest⟩
      -- the first crossing is not behind the second sample, and the others are not before it
      obtain ⟨i, -, c, rfl, hlater⟩ := (@mem_crossings_exact f (x ∘ Nat.succ) _ _).mp hroot
      obtain ⟨u, v, hu, hv, hcross⟩ := changesSign_exact.mp hsign
      dsimp only at hu hv ⊢
      rw [hu, hv, interpolated_exact hcross, Exact.number_le]
      calc crossing (x 0) (x 1) u v
          ≤ x 1 := (hcross.crossing_mem (hx (Nat.zero_le 1))).2
        _ ≤ x (i + 1) := hx (Nat.le_add_left 1 i)
        _ ≤ c := (hlater.mem (hx (Nat.le_succ (i + 1)))).1
    · exact hrest

/-- A scan takes the steps that do not lead beyond its end. -/
theorem lt_toNat_floor_iff (hle : min ≤ max) (hstep : 0 < step) (i : ℕ) :
    i < Scalar.toNat (Scalar.floor ((number max - number min) / number step)) ↔
      gridAt min step (i + 1) ≤ max := by
  -- no quotient is lost, so it is a matter of the number
  have hquotient : (number max - number min) / number step = number ((max - min) / step) :=
    Exact.number_div _ _ hstep.ne'
  have hnonneg : 0 ≤ (max - min) / step := div_nonneg (sub_nonneg.mpr hle) hstep.le
  rw [hquotient, Exact.toNat_floor hnonneg, ← Nat.add_one_le_iff, Nat.le_floor_iff hnonneg,
    le_div_iff₀ hstep, le_sub_iff_add_le', gridAt]

/-- What a scan does between its ends: it takes the steps that do not lead beyond them. -/
theorem exists_count (hle : min ≤ max) (hstep : 0 < step) (f : Exact → Exact) :
    ∃ count, signChanges (number min) (number max) (number step) f =
        spaced (number (1e-6 * step)) none (crossings ((List.range (count + 1)).map fun i =>
          (number (gridAt min step i), f (number (gridAt min step i))))) ∧
      ∀ i, i < count ↔ gridAt min step (i + 1) ≤ max := by
  have hguard : (Scalar.isFinite (number step) && decide ((0.0 : Exact) < number step) &&
      Scalar.isFinite (number min) && decide (number min ≤ number max)) = true := by
    have hpos : (0.0 : Exact) < number step := Exact.zero_lt_iff.mpr ⟨step, rfl, hstep⟩
    rw [decide_eq_true hpos, decide_eq_true (Exact.number_le.mpr hle)]
    rfl
  have hgap : number step * (1e-6 : Exact) = number (1e-6 * step) := by
    rw [Exact.ofScientific_eq, Exact.number_mul, mul_comm]
  refine ⟨_, ?_, lt_toNat_floor_iff hle hstep⟩
  rw [← samples_exact, ← hgap]
  exact if_pos hguard

/-- **A scan thins the crossings between its samples.** -/
theorem exists_found (hle : min ≤ max) (hstep : 0 < step) (f : Exact → Exact) :
    ∃ found roots : List ℝ, signChanges (number min) (number max) (number step) f =
        roots.map number ∧ Thinned (1e-6 * step) found roots ∧
      ∀ c, c ∈ found ↔ ∃ i, gridAt min step (i + 1) ≤ max ∧
        Crossed f (gridAt min step i) (gridAt min step (i + 1)) c := by
  obtain ⟨count, hscan, hcount⟩ := exists_count hle hstep f
  have hmem (root : Exact) := @mem_crossings_exact f (gridAt min step) root count
  have hsorted :=
    @crossings_ascend f (gridAt min step) (fun _ _ h => gridAt_le_gridAt hstep h) count
  rw [hscan]
  generalize @crossings Exact _ (List.map _ _) = crossed at hmem hsorted ⊢
  -- all that is found are numbers
  obtain ⟨found, rfl⟩ : ∃ found : List ℝ, found.map number = crossed := by
    show crossed ∈ Set.range (List.map number)
    rw [Set.range_list_map]
    intro root hroot
    obtain ⟨i, -, c, rfl, -⟩ := (hmem root).mp hroot
    exact ⟨c, rfl⟩
  have hnumbers : found.Pairwise (· ≤ ·) := by
    simpa only [List.pairwise_map, Exact.number_le] using hsorted
  have hfound (c : ℝ) : c ∈ found ↔ ∃ i, gridAt min step (i + 1) ≤ max ∧
      Crossed f (gridAt min step i) (gridAt min step (i + 1)) c := by
    have hinj : Function.Injective number := fun _ _ h => Exact.number.inj h
    rw [← List.mem_map_of_injective hinj, hmem]
    refine exists_congr fun i => and_congr (hcount i) ?_
    constructor
    · rintro ⟨d, hd, hcross⟩
      rwa [Exact.number.inj hd]
    · exact fun hcross => ⟨c, rfl, hcross⟩
  cases found with
  | nil =>
    have hnear : ∀ r ∈ ([] : List ℝ), ∃ k ∈ ([] : List ℝ), k ≤ r ∧ r - k ≤ 1e-6 * step :=
      List.forall_mem_nil _
    exact ⟨[], [], rfl, ⟨.slnil, .nil, hnear⟩, hfound⟩
  | cons first rest =>
    -- the first root is kept in any case
    have hgap : 0 ≤ 1e-6 * step := by positivity
    obtain ⟨kept, heq, hthin⟩ := exists_thinned hgap hnumbers
    refine ⟨first :: rest, first :: kept, ?_, hthin, hfound⟩
    rw [List.map_cons, List.map_cons, spaced, heq]

end Scan

/-- **Exactly, a scan misses nothing and invents nothing.** Its roots ascend, lie between its ends
and are more than a millionth of a step apart. Near every crossing between two neighbouring samples
is a root, and every root is such a crossing, so that an undefined sample silences the two intervals
it ends and no other. A sample that is zero between two that are not is reported, and no other root
is less than a step away from it. -/
theorem signChanges_exact (f : Exact → Exact) {min max step : ℝ} (hle : min ≤ max)
    (hstep : 0 < step) :
    ∃ roots : List ℝ,
      signChanges (number min) (number max) (number step) f = roots.map number ∧
      roots.Pairwise (fun a b => a < b ∧ 1e-6 * step < b - a) ∧
      (∀ root ∈ roots, min ≤ root ∧ root ≤ max) ∧
      (∀ i c, gridAt min step (i + 1) ≤ max →
        Crossed f (gridAt min step i) (gridAt min step (i + 1)) c →
          ∃ root ∈ roots, |root - c| ≤ 1e-6 * step) ∧
      (∀ root ∈ roots, ∃ i, gridAt min step (i + 1) ≤ max ∧
        Crossed f (gridAt min step i) (gridAt min step (i + 1)) root) ∧
      ∀ i u v, gridAt min step (i + 2) ≤ max → u ≠ 0 → v ≠ 0 →
        f (number (gridAt min step i)) = number u →
        f (number (gridAt min step (i + 1))) = number 0 →
        f (number (gridAt min step (i + 2))) = number v →
          roots.count (gridAt min step (i + 1)) = 1 ∧
            ∀ root ∈ roots, |root - gridAt min step (i + 1)| < step →
              root = gridAt min step (i + 1) := by
  obtain ⟨found, roots, heq, hthin, hfound⟩ := exists_found hle hstep f
  have hexplained (root : ℝ) (hroot : root ∈ roots) : ∃ i, gridAt min step (i + 1) ≤ max ∧
      Crossed f (gridAt min step i) (gridAt min step (i + 1)) root :=
    (hfound root).mp (hthin.sublist.subset hroot)
  have hascend {i j : ℕ} (h : i ≤ j) : gridAt min step i ≤ gridAt min step j :=
    gridAt_le_gridAt hstep h
  have hascending : roots.Pairwise fun a b => a < b ∧ 1e-6 * step < b - a := by
    have hpos : 0 < 1e-6 * step := by positivity
    exact hthin.apart.imp fun {a b} hgap => ⟨by linarith, hgap⟩
  refine ⟨roots, heq, hascending, fun root hroot => ?_, fun i c hi hcross => ?_, hexplained, ?_⟩
  · obtain ⟨i, hi, hcross⟩ := hexplained root hroot
    obtain ⟨hleft, hright⟩ := hcross.mem (hascend i.le_succ)
    have hfirst : min = gridAt min step 0 := by
      rw [gridAt, Nat.cast_zero, zero_mul, add_zero]
    constructor
    · calc min = gridAt min step 0 := hfirst
        _ ≤ gridAt min step i := hascend i.zero_le
        _ ≤ root := hleft
    · exact hright.trans hi
  · obtain ⟨root, hroot, hle', hnear⟩ := hthin.near c ((hfound c).mpr ⟨i, hi, hcross⟩)
    refine ⟨root, hroot, ?_⟩
    rw [abs_sub_comm, abs_of_nonneg (sub_nonneg.mpr hle')]
    exact hnear
  · intro i u v hi hu hv hleft hzero hright
    have honly (root : ℝ) (hroot : root ∈ roots)
        (hnear : |root - gridAt min step (i + 1)| < step) : root = gridAt min step (i + 1) := by
      obtain ⟨j, -, hcross⟩ := hexplained root hroot
      exact hcross.eq_of_near hstep hzero hnear
    have hin : gridAt min step (i + 1) ∈ roots := by
      have hend := (hascend (i + 1).le_succ).trans hi
      have hcross := crossed_of_zero hleft hzero hu
      obtain ⟨k, hk, hle', hnear⟩ := hthin.near _ ((hfound _).mpr ⟨i, hend, hcross⟩)
      have hclose : |k - gridAt min step (i + 1)| < step := by
        rw [abs_sub_comm, abs_of_nonneg (sub_nonneg.mpr hle')]
        linarith
      rwa [← honly k hk hclose]
    have hnodup : roots.Nodup := hascending.imp fun {a b} h => ne_of_lt h.1
    exact ⟨List.count_eq_one_of_mem hnodup hin, honly⟩

/-- The line `y = x` is seen to cross zero once, though its zero is a sample and ends two
intervals. -/
theorem signChanges_exact_identity : (-1 : ℝ) ≤ 1 ∧ (0 : ℝ) < 1 / 2 ∧
    signChanges (number (-1)) (number 1) (number (1 / 2)) id = [number 0] := by
  have hle : (-1 : ℝ) ≤ 1 := by norm_num
  have hstep : (0 : ℝ) < 1 / 2 := by norm_num
  refine ⟨hle, hstep, ?_⟩
  obtain ⟨roots, heq, -, -, -, hexplained, honce⟩ := signChanges_exact id hle hstep
  have hgrid (i : ℕ) : gridAt (-1) (1 / 2) i = -1 + i / 2 := by rw [gridAt, mul_one_div]
  have hcount : roots.count 0 = 1 := by
    have hzero : gridAt (-1) (1 / 2) (1 + 1) = 0 := by
      rw [hgrid]
      norm_num
    have hends := honce 1 (-1 / 2) (1 / 2) (by rw [hgrid]; norm_num) (by norm_num) (by norm_num)
      (by rw [hgrid]; norm_num) (congrArg number hzero) (by rw [hgrid]; norm_num)
    rw [hzero] at hends
    exact hends.1
  have hall : ∀ root ∈ roots, root = 0 := by
    intro root hroot
    obtain ⟨i, -, u, v, hu, hv, -, rfl⟩ := hexplained root hroot
    obtain rfl := Exact.number.inj hu
    obtain rfl := Exact.number.inj hv
    have hwidth : gridAt (-1) (1 / 2) i - gridAt (-1) (1 / 2) (i + 1) ≠ 0 := by
      rw [gridAt_succ]
      norm_num
    rw [crossing, mul_div_assoc', ← neg_sub, neg_mul, neg_div, mul_div_cancel_left₀ _ hwidth,
      add_neg_cancel]
  have hroots : roots = [0] := by
    have hlength : roots.length = 1 := by
      rw [← hcount, List.count_eq_length.mpr fun root hroot => (hall root hroot).symm]
    obtain ⟨root, rfl⟩ := List.length_eq_one_iff.mp hlength
    rw [hall root (List.mem_singleton_self root)]
  rw [heq, hroots, List.map_cons, List.map_nil]

end CurvePlot.RootScan
