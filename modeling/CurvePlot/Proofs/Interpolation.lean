import CurvePlot.Proofs.Exact
import CurvePlot.Proofs.Samples
/-!
# Values between samples

What a strip says of its curve, where nothing is rounded (`valueAt_reached`): the sample at the
place of a sample, the line through two samples between them, and nothing outside the window.

The place of a value is counted in steps from the window's start. It is taken for a whole number
if it is less than a billionth away from one (`indexOf_eq`), so that the sample itself is found
though the division is rounded; exactly, that matters right beside a sample only. The whole
part of the index is the sample before the place, and the rest is the part of the step behind it.

`readAt` reads the samples that are needed, and fails where there are none. It never does
(`readAt_eq`): the last sample has no other behind it, but it is needed by itself only.
-/

namespace CurvePlot.Strip

open Exact (number undefined)

/-! ### Strips that were built and slid -/

/-- **The strip was built and slid any number of times,** to any ranges and along any curves. -/
inductive Reached {α : Type} [Scalar α] : Strip α → Prop where
  | build (curve : α → α) (min max pixelWidth : α) (settings : Settings α) :
      Reached (build curve min max pixelWidth settings)
  | slide {s s' : Strip α} (curve : α → α) (min max : α) (settings : Settings α) :
      Reached s → s.slide? curve min max settings = some s' → Reached s'

/-- The samples of the window stand at equal steps from its start, and there are two at least. -/
structure Even (start step : ℝ) (s : Strip Exact) : Prop where
  step_pos : 0 < step
  step_eq : s.step = number step
  sampleX_eq : ∀ i : ℕ, s.sampleX i = number (start + i * step)
  two_le : 2 ≤ s.size

section Layout

variable {s s' : Strip Exact} {origin step : ℝ}

/-- A strip stays on the grid that it was built on. -/
theorem even_of_origin (hpos : 0 < step) (horigin : s.origin = number origin)
    (hstep : s.step = number step) (hsize : 2 ≤ s.size) :
    Even (origin + s.offset * step) step s where
  step_pos := hpos
  step_eq := hstep
  -- the grid counts from its origin, the window from its start
  sampleX_eq i := by
    have hplace : s.sampleX i = number (((s.offset + i : ℤ) : ℝ) * step + origin) := by
      rw [sampleX, horigin, hstep]
      rfl
    rw [hplace, Int.cast_add, Int.cast_natCast]
    congr 1
    ring
  two_le := hsize

/-- What a slide makes of a strip is the strip moved by whole steps. -/
theorem exists_shifted {α : Type} [Scalar α] {curve : α → α} {s s' : Strip α} {min max : α}
    {settings : Settings α} (h : s.slide? curve min max settings = some s') :
    ∃ shift, s' = s.shifted curve shift := by
  unfold slide? at h
  dsimp only at h
  split at h
  · cases h
  · split at h
    · cases h
    · exact ⟨_, (Option.some.inj h).symm⟩

/-- A strip that is built has no samples, or two at least, which stand apart. -/
theorem build_cases {α : Type} [Scalar α] (curve : α → α) (min max pixelWidth : α)
    (settings : Settings α) : (build curve min max pixelWidth settings).isEmpty = true ∨
      ∃ count : ℕ, 2 ≤ count ∧ (build curve min max pixelWidth settings).size = count ∧
        Scalar.isFinite (build curve min max pixelWidth settings).step = true ∧
        ¬(build curve min max pixelWidth settings).step ≤ 0.0 ∧
        (build curve min max pixelWidth settings).step =
          (max - min) * settings.stripWidths / Scalar.ofNat count ∧
        (build curve min max pixelWidth settings).origin = min - margin (max - min) settings := by
  unfold build
  dsimp only
  split
  · -- too few samples, or a step that is none
    exact .inl rfl
  · next hsome =>
    rw [Bool.or_eq_true, Bool.or_eq_true, decide_eq_true_eq, decide_eq_true_eq, not_or, not_or,
      Bool.not_eq_true', Bool.not_eq_false] at hsome
    refine .inr ⟨_, not_lt.mp hsome.1.1, ?_, hsome.1.2, hsome.2, rfl, rfl⟩
    simp [size, RingBuffer.size, RingBuffer.ofArray]

/-- The ends of a range are numbers if the step of its strip is. -/
theorem exists_numbers_of_step {min max w c : Exact} {r : ℝ} (h : (max - min) * w / c = number r) :
    ∃ a b v : ℝ, min = number a ∧ max = number b ∧ w = number v := by
  rcases max with _ | b
  -- an undefined end leaves an undefined step
  case undefined => cases h
  rcases min with _ | a
  case undefined => cases h
  rcases w with _ | v
  case undefined => cases h
  exact ⟨a, b, v, rfl, rfl, rfl⟩

/-- A strip that has samples has two at least, and its grid is one of numbers. -/
theorem Reached.exists_origin (h : Reached s) (hne : s.isEmpty = false) :
    ∃ origin step : ℝ, 0 < step ∧ s.origin = number origin ∧ s.step = number step ∧ 2 ≤ s.size := by
  induction h with
  | build curve min max pixelWidth settings =>
    rcases build_cases curve min max pixelWidth settings with
      hempty | ⟨count, hcount, hsize, hfinite, hpos, hstep, horigin⟩
    · -- no samples, against the assumption
      rw [hempty] at hne
      cases hne
    · rw [hsize]
      generalize (Strip.build curve min max pixelWidth settings).step = step at *
      rcases step with _ | step
      case undefined => cases hfinite
      obtain ⟨a, b, w, rfl, rfl, hw⟩ := exists_numbers_of_step hstep.symm
      rw [Exact.zero_literal, Exact.number_le, not_le] at hpos
      refine ⟨a - (b - a) * (w - 1) / 2, step, hpos, ?_, rfl, hcount⟩
      -- the start is the lower end less the margin, which is computed of numbers only
      rw [horigin, margin, hw, Exact.one_literal, Exact.two_literal, Exact.number_sub,
        Exact.number_sub, Exact.number_mul, Exact.number_div _ _ two_ne_zero, Exact.number_sub]
  | @slide s _ curve min max settings _ hslide ih =>
    -- a slide changes neither the number of samples nor the grid they stand on
    obtain ⟨shift, rfl⟩ := exists_shifted hslide
    have hsize : (s.shifted curve shift).size = s.size := size_shifted s curve shift
    rw [isEmpty, hsize] at hne
    obtain ⟨origin, step, hpos, horigin, hstep, htwo⟩ := ih hne
    exact ⟨origin, step, hpos, horigin, hstep, hsize.symm ▸ htwo⟩

/-- **A strip that has samples stands on an even grid.** -/
theorem Reached.exists_even (h : Reached s) (hne : s.isEmpty = false) :
    ∃ start step : ℝ, Even start step s := by
  obtain ⟨origin, step, hpos, horigin, hstep, hsize⟩ := h.exists_origin hne
  exact ⟨_, step, even_of_origin hpos horigin hstep hsize⟩

namespace Even

variable {start : ℝ}

theorem startX_eq (h : Even start step s) : s.startX = number start := by
  have hfirst : s.sampleX 0 = s.startX := by
    rw [sampleX, Nat.cast_zero, Int.add_zero, startX]
  rw [← hfirst, h.sampleX_eq, Nat.cast_zero, zero_mul, add_zero]

theorem endX_eq (h : Even start step s) :
    s.endX = number (start + (s.size - 1 : ℕ) * step) := by
  have hend : s.endX = number ((((s.size - 1 : ℕ) : ℤ) : ℝ) * step + start) := by
    rw [endX, h.startX_eq, h.step_eq]
    rfl
  rw [hend, Int.cast_natCast, add_comm]

end Even

end Layout

/-! ### Places in steps -/

section Index

variable {s : Strip Exact} {start step x p : ℝ}

/-- **A place is counted in steps,** or is the whole number beside it. -/
theorem Even.indexOf_eq (h : Even start step s) (hp : x = start + p * step) :
    ∃ n : ℤ, |p - n| ≤ 1 / 2 ∧
      s.indexOf (number x) = if |p - n| < 1e-9 then number n else number p := by
  obtain ⟨n, hround, hhalf⟩ := Exact.exists_round p
  refine ⟨n, hhalf, ?_⟩
  -- the start is taken off and divided by the step, exactly
  have hindex : (number x - s.startX) / s.step = number p := by
    rw [h.startX_eq, h.step_eq, Exact.number_sub, Exact.number_div _ _ h.step_pos.ne', hp,
      add_sub_cancel_left, mul_div_cancel_right₀ p h.step_pos.ne']
  have hnear : Scalar.abs (number p - number n) < (1e-9 : Exact) ↔ |p - n| < 1e-9 := by
    have habs : Scalar.abs (number p - number n) = number |p - n| := rfl
    rw [habs, Exact.ofScientific_eq, Exact.number_lt]
  rw [indexOf, hindex, hround]
  exact if_congr hnear rfl rfl

/-- Whole numbers of steps are told from each other. -/
theorem Even.indexOf_whole (h : Even start step s) (n : ℤ) (hx : x = start + n * step) :
    s.indexOf (number x) = number n := by
  obtain ⟨m, hhalf, hindex⟩ := h.indexOf_eq hx
  -- the place is at no distance from its whole number
  rw [hindex, ← Exact.eq_of_near hhalf, sub_self, abs_zero]
  exact if_pos (by norm_num)

/-- What is not near to any whole number of steps is left as it is. -/
theorem Even.indexOf_apart (h : Even start step s) (hp : x = start + p * step)
    (hapart : ∀ n : ℤ, ¬|p - n| < 1e-9) : s.indexOf (number x) = number p := by
  obtain ⟨n, -, hindex⟩ := h.indexOf_eq hp
  rw [hindex, if_neg (hapart n)]

/-- The index is less than a billionth away from the place in any case. -/
theorem Even.exists_index (h : Even start step s) (hp : x = start + p * step) :
    ∃ j : ℝ, s.indexOf (number x) = number j ∧ |p - j| < 1e-9 := by
  -- rounded to a whole number, or left as it is
  obtain ⟨n, -, hindex⟩ := h.indexOf_eq hp
  by_cases hnear : |p - n| < 1e-9
  · exact ⟨n, hindex.trans (if_pos hnear), hnear⟩
  · refine ⟨p, hindex.trans (if_neg hnear), ?_⟩
    rw [sub_self, abs_zero]
    norm_num

/-- Between two whole numbers is no other. -/
theorem not_near_of_between {i : ℕ} (hlower : i + 1e-9 < p) (hupper : p < i + 1 - 1e-9) (n : ℤ) :
    ¬|p - n| < 1e-9 := by
  intro hnear
  obtain ⟨hleft, hright⟩ := abs_lt.mp hnear
  have hn : n ≤ (i : ℤ) ∨ (i : ℤ) + 1 ≤ n := by omega
  rcases hn with hbelow | habove
  · have hcast : (n : ℝ) ≤ i := by exact_mod_cast hbelow
    linarith
  · have hcast : (i : ℝ) + 1 ≤ n := by exact_mod_cast habove
    linarith

end Index

/-! ### Reading the samples -/

/-- **The curve as the samples give it,** if no other samples are needed than those of the
window. -/
def readAt {α : Type} [Scalar α] (s : Strip α) (x : α) : Option α :=
  let index := s.indexOf x
  if s.size < 2 || !Scalar.isFinite index || decide (index < 0.0) then some Scalar.undefined
  else
    let i := Scalar.toNat (Scalar.floor index)
    let t := index - Scalar.ofNat i
    if s.size ≤ i || (decide ((0.0 : α) < t) && decide (s.size ≤ i + 1)) then some Scalar.undefined
    else
      (s.samples.get? i).bind fun y0 =>
        if t == (0.0 : α) then some y0
        else (s.samples.get? (i + 1)).map fun y1 => Scalar.fma t (y1 - y0) y0

/-- Every sample of the window has its slot. -/
theorem get?_eq_sampleAt {α : Type} [Scalar α] (s : Strip α) {i : ℕ} (h : i < s.size) :
    s.samples.get? i = some (s.sampleAt i) := by
  have hslot : (s.samples.start + i) % s.samples.slots.size < s.samples.slots.size :=
    Nat.mod_lt _ (Nat.zero_lt_of_lt h)
  have hget : s.samples.get? i =
      some s.samples.slots[(s.samples.start + i) % s.samples.slots.size] := by
    rw [RingBuffer.get?_of_lt s.samples h, Array.getElem?_eq_getElem hslot]
  rw [sampleAt, hget, Option.getD_some]

section Values

variable {s : Strip Exact} {start step x j : ℝ}

/-- The whole part of an index and what is left behind it. -/
theorem floor_index (hj : 0 ≤ j) : Scalar.toNat (Scalar.floor (number j)) = ⌊j⌋₊ ∧
    number j - Scalar.ofNat ⌊j⌋₊ = number (j - ⌊j⌋₊) := by
  have hcount : (Scalar.ofNat ⌊j⌋₊ : Exact) = number ⌊j⌋₊ := congrArg number (Int.cast_natCast _)
  rw [hcount, Exact.number_sub]
  exact ⟨Exact.toNat_floor hj, rfl⟩

/-- **No place needs a sample outside the window.** -/
theorem readAt_eq (s : Strip Exact) (x : Exact) : s.readAt x = some (s.valueAt x) := by
  unfold readAt valueAt
  dsimp only
  -- both functions look at the index only
  generalize s.indexOf x = index
  by_cases hguard : (decide (s.size < 2) || !Scalar.isFinite index ||
      decide (index < (0.0 : Exact))) = true
  · rw [if_pos hguard, if_pos hguard]
  rw [if_neg hguard, if_neg hguard]
  rw [Bool.or_eq_true, Bool.or_eq_true, decide_eq_true_eq, decide_eq_true_eq, not_or, not_or,
    Bool.not_eq_true', Bool.not_eq_false] at hguard
  obtain ⟨⟨-, hfinite⟩, hnonneg⟩ := hguard
  rcases index with _ | j
  case undefined => cases hfinite
  rw [Exact.zero_literal, Exact.number_lt, not_lt] at hnonneg
  obtain ⟨hwhole, hrest⟩ := floor_index hnonneg
  rw [hwhole, hrest, Exact.zero_literal]
  -- behind the window, on a sample, and between two
  split_ifs with hbeyond hhit
  · rfl
  all_goals
    rw [Bool.or_eq_true, Bool.and_eq_true, decide_eq_true_eq, decide_eq_true_eq, decide_eq_true_eq,
      Exact.number_lt, not_or, not_le, not_and, not_le] at hbeyond
    rw [get?_eq_sampleAt s hbeyond.1]
  · rfl
  · -- a place that is not that of the sample is behind it, and then there is another one
    have hle : (⌊j⌋₊ : ℝ) ≤ j := Nat.floor_le hnonneg
    have hne : j - ⌊j⌋₊ ≠ 0 := fun hzero => hhit (decide_eq_true hzero)
    have hbehind : 0 < j - ⌊j⌋₊ := lt_of_le_of_ne (sub_nonneg.mpr hle) hne.symm
    rw [get?_eq_sampleAt s (hbeyond.2 hbehind)]
    rfl

/-- The value at a place whose index is not negative. -/
theorem valueAt_of_index (hindex : s.indexOf (number x) = number j) (hsize : 2 ≤ s.size)
    (hj : 0 ≤ j) : s.valueAt (number x) =
      if s.size ≤ ⌊j⌋₊ ∨ 0 < j - ⌊j⌋₊ ∧ s.size ≤ ⌊j⌋₊ + 1 then undefined
      else if j - ⌊j⌋₊ = 0 then s.sampleAt ⌊j⌋₊
      else Scalar.fma (number (j - ⌊j⌋₊)) (s.sampleAt (⌊j⌋₊ + 1) - s.sampleAt ⌊j⌋₊)
        (s.sampleAt ⌊j⌋₊) := by
  obtain ⟨hwhole, hrest⟩ := floor_index hj
  -- the first test passes, since the index is a number and not negative
  have hguard : ¬(decide (s.size < 2) || !Scalar.isFinite (number j) ||
      decide (number j < (0.0 : Exact))) = true := by
    rw [Exact.zero_literal, decide_eq_false (Exact.number_lt.not.mpr (not_lt.mpr hj)),
      decide_eq_false (not_lt.mpr hsize)]
    exact Bool.false_ne_true
  rw [valueAt, hindex]
  dsimp only
  rw [if_neg hguard, hwhole, hrest, Exact.zero_literal]
  refine if_congr ?_ rfl (if_congr decide_eq_true_iff rfl rfl)
  rw [Bool.or_eq_true, Bool.and_eq_true, decide_eq_true_eq, decide_eq_true_eq, decide_eq_true_eq,
    Exact.number_lt]

/-- At the place of a sample stands the sample. -/
theorem valueAt_of_index_natCast {i : ℕ} (hindex : s.indexOf (number x) = number i)
    (hsize : 2 ≤ s.size) (hi : i < s.size) : s.valueAt (number x) = s.sampleAt i := by
  rw [valueAt_of_index hindex hsize (Nat.cast_nonneg i), Nat.floor_natCast, sub_self, if_pos rfl]
  refine if_neg ?_
  rintro (hbeyond | ⟨hbehind, -⟩)
  · exact hbeyond.not_gt hi
  · exact lt_irrefl 0 hbehind

/-- Between two samples is the line through them. -/
theorem valueAt_of_index_between {i : ℕ} (hindex : s.indexOf (number x) = number j)
    (hi : i + 1 < s.size) (hlower : i < j) (hupper : j < i + 1) : s.valueAt (number x) =
      Scalar.fma (number (j - i)) (s.sampleAt (i + 1) - s.sampleAt i) (s.sampleAt i) := by
  have hnonneg : 0 ≤ j := (Nat.cast_nonneg i).trans hlower.le
  have hwhole : ⌊j⌋₊ = i := (Nat.floor_eq_iff hnonneg).mpr ⟨hlower.le, hupper⟩
  rw [valueAt_of_index hindex (by omega) hnonneg, hwhole, if_neg (by omega),
    if_neg (sub_pos.mpr hlower).ne']

/-- Outside the window is nothing. -/
theorem valueAt_of_index_outside (hindex : s.indexOf (number x) = number j)
    (hj : j < 0 ∨ ((s.size - 1 : ℕ) : ℝ) < j) (hsize : 2 ≤ s.size) :
    s.valueAt (number x) = undefined := by
  -- behind the window or before it; before it the index is negative
  by_cases hnonneg : 0 ≤ j
  · have hafter : ((s.size - 1 : ℕ) : ℝ) < j := hj.resolve_left (not_lt.mpr hnonneg)
    rw [valueAt_of_index hindex hsize hnonneg]
    refine if_pos ?_
    -- behind the last sample, if the index has that for its whole part
    by_cases hlast : s.size ≤ ⌊j⌋₊
    · exact .inl hlast
    · have hle : s.size - 1 ≤ ⌊j⌋₊ := Nat.le_floor hafter.le
      have hwhole : ⌊j⌋₊ = s.size - 1 := by omega
      refine .inr ⟨?_, by omega⟩
      rw [hwhole]
      exact sub_pos.mpr hafter
  · have hguard : (decide (s.size < 2) || !Scalar.isFinite (number j) ||
        decide (number j < (0.0 : Exact))) = true := by
      rw [Exact.zero_literal, decide_eq_true (Exact.number_lt.mpr (not_le.mp hnonneg)),
        Bool.or_true]
    rw [valueAt, hindex]
    exact if_pos hguard

end Values

/-! ### The values of a strip -/

section Main

variable {s : Strip Exact} {start step x : ℝ}

/-- The place in steps of a number. -/
theorem Even.exists_place (h : Even start step s) (x : ℝ) : ∃ p : ℝ, x = start + p * step := by
  refine ⟨(x - start) / step, ?_⟩
  rw [div_mul_cancel₀ _ h.step_pos.ne', add_sub_cancel]

theorem Even.valueAt_sampleX (h : Even start step s) {i : ℕ} (hi : i < s.size) :
    s.valueAt (s.sampleX i) = s.sampleAt i := by
  rw [h.sampleX_eq]
  refine valueAt_of_index_natCast ?_ h.two_le hi
  rw [h.indexOf_whole i (by rw [Int.cast_natCast]), Int.cast_natCast]

theorem Even.valueAt_between (h : Even start step s) {i : ℕ} (hi : i + 1 < s.size)
    (hlower : start + i * step + 1e-9 * step < x)
    (hupper : x < start + (i + 1) * step - 1e-9 * step) : s.valueAt (number x) =
      Scalar.fma (number ((x - (start + i * step)) / step)) (s.sampleAt (i + 1) - s.sampleAt i)
        (s.sampleAt i) := by
  obtain ⟨p, rfl⟩ := h.exists_place x
  -- in steps the place is between the two, apart from both
  have hafter : i + 1e-9 < p := by
    refine lt_of_mul_lt_mul_right ?_ h.step_pos.le
    linarith
  have hbefore : p < i + 1 - 1e-9 := by
    refine lt_of_mul_lt_mul_right ?_ h.step_pos.le
    linarith
  have hrest : (start + p * step - (start + i * step)) / step = p - i := by
    rw [add_sub_add_left_eq_sub, ← sub_mul, mul_div_cancel_right₀ _ h.step_pos.ne']
  rw [hrest]
  exact valueAt_of_index_between (h.indexOf_apart rfl (not_near_of_between hafter hbefore)) hi
    (by linarith) (by linarith)

theorem Even.valueAt_outside (h : Even start step s) (hx : x < start - 1e-9 * step ∨
    start + (s.size - 1 : ℕ) * step + 1e-9 * step < x) : s.valueAt (number x) = undefined := by
  obtain ⟨p, rfl⟩ := h.exists_place x
  obtain ⟨j, hindex, hnear⟩ := h.exists_index rfl
  obtain ⟨hleft, hright⟩ := abs_lt.mp hnear
  refine valueAt_of_index_outside hindex ?_ h.two_le
  rcases hx with hbefore | hafter
  · -- even an index that was moved by a billionth is outside
    have hp : p < -1e-9 := by
      refine lt_of_mul_lt_mul_right ?_ h.step_pos.le
      linarith
    exact .inl (by linarith)
  · have hp : (s.size - 1 : ℕ) + 1e-9 < p := by
      refine lt_of_mul_lt_mul_right ?_ h.step_pos.le
      linarith
    exact .inr (by linarith)

/-- The line through two samples is undefined if one of them is. -/
theorem fma_sub_eq_undefined_iff (t : ℝ) (a b : Exact) :
    Scalar.fma (number t) (b - a) a = undefined ↔ a = undefined ∨ b = undefined := by
  rcases a with _ | u <;> rcases b with _ | v
  case number.number => exact iff_of_false nofun (by rintro (h | h) <;> cases h)
  case undefined.undefined | undefined.number => exact iff_of_true rfl (.inl rfl)
  case number.undefined => exact iff_of_true rfl (.inr rfl)

/-- **A strip gives its samples, and the lines between them.** However often it was slid, a strip
that has samples has at the place of a sample that sample; between two samples, unless the place is
taken for that of one of them, the value of the line through them, which is undefined exactly if one
of them is; and nothing before its first sample and behind its last. No place needs a sample that
is not in the window. -/
theorem valueAt_reached (h : Reached s) (hne : s.isEmpty = false) :
    ∃ start step : ℝ, 0 < step ∧ s.step = number step ∧ s.startX = number start ∧
      s.endX = number (start + (s.size - 1 : ℕ) * step) ∧
      (∀ i < s.size, s.sampleX i = number (start + i * step) ∧
        s.samples.get? i = some (s.sampleAt i) ∧ s.valueAt (s.sampleX i) = s.sampleAt i) ∧
      (∀ (i : ℕ) (x : ℝ), i + 1 < s.size → start + i * step + 1e-9 * step < x →
        x < start + (i + 1) * step - 1e-9 * step →
          (∀ u v, s.sampleAt i = number u → s.sampleAt (i + 1) = number v →
            s.valueAt (number x) = number (u + (x - (start + i * step)) / step * (v - u))) ∧
          (s.valueAt (number x) = undefined ↔
            s.sampleAt i = undefined ∨ s.sampleAt (i + 1) = undefined)) ∧
      (∀ x : ℝ, x < start - 1e-9 * step ∨ start + (s.size - 1 : ℕ) * step + 1e-9 * step < x →
        s.valueAt (number x) = undefined) ∧
      ∀ x : Exact, s.readAt x = some (s.valueAt x) := by
  obtain ⟨start, step, heven⟩ := h.exists_even hne
  refine ⟨start, step, heven.step_pos, heven.step_eq, heven.startX_eq, heven.endX_eq,
    fun i hi => ⟨heven.sampleX_eq i, get?_eq_sampleAt s hi, heven.valueAt_sampleX hi⟩,
    fun i x hi hlower hupper => ?_, fun x hx => heven.valueAt_outside hx, readAt_eq s⟩
  rw [heven.valueAt_between hi hlower hupper]
  refine ⟨fun u v hu hv => ?_, fma_sub_eq_undefined_iff _ _ _⟩
  rw [hu, hv]
  -- the line is written from the sample before, as the computation has it
  have hline (t : ℝ) : Scalar.fma (number t) (number v - number u) (number u) =
      number (t * (v - u) + u) := rfl
  rw [hline, add_comm]

end Main

/-! ### A strip of the diagonal -/

theorem sameSpan_self (w : ℝ) : sameSpan (number w) (number w) = true := by
  have hgap : Scalar.abs (number w - number w) = number |w - w| := rfl
  have hgreater : Scalar.max (Scalar.abs (number w)) (Scalar.abs (number w)) = number |w| :=
    if_neg (Exact.number_lt.not.mpr (lt_irrefl |w|))
  have hnear : Scalar.abs (number w - number w) ≤ 1e-9 * number |w| := by
    rw [hgap, Exact.ofScientific_eq, Exact.number_mul, Exact.number_le, sub_self, abs_zero]
    positivity
  rw [sameSpan, hgreater]
  exact decide_eq_true hnear

theorem three_literal : (3.0 : Exact) = number 3 := by
  rw [Exact.ofScientific_eq]
  norm_num

/-- By the standard settings a strip has the width of the view on each side. -/
theorem margin_standard (w : ℝ) : margin (number w) Settings.standard = number w := by
  have hwidths : (Settings.standard : Settings Exact).stripWidths = 3.0 := rfl
  rw [margin, hwidths, three_literal, Exact.one_literal, Exact.two_literal, Exact.number_sub,
    Exact.number_mul, Exact.number_div _ _ two_ne_zero]
  congr 1
  ring

/-- The strip of `y = x` over a view from `-1` to `1`, ten pixels wide. -/
theorem build_diagonal : build id (number (-1)) (number 1) (number 10) Settings.standard =
    ⟨number (-3), 0, number (1 / 10),
      .ofArray (sample id (number (-3)) (number (1 / 10)) 0 60).toArray, number 2, number 10⟩ := by
  have hwidth : number 1 - number (-1) = number 2 := by
    rw [Exact.number_sub]
    norm_num
  have hcount : Scalar.toNat (number 10 * 3.0 * 2.0) = 60 := by
    rw [three_literal, Exact.two_literal, Exact.number_mul, Exact.number_mul]
    show ⌊(10 * 3 * 2 : ℝ)⌋₊ = 60
    norm_num
  have hstep : number 2 * 3.0 / Scalar.ofNat 60 = number (1 / 10) := by
    have hsixty : (Scalar.ofNat 60 : Exact) = number 60 := rfl
    rw [three_literal, hsixty, Exact.number_mul, Exact.number_div _ _ (by norm_num)]
    norm_num
  have horigin : number (-1) - number 2 = number (-3) := by
    rw [Exact.number_sub]
    norm_num
  -- sixty samples at a positive step are enough for a strip
  have hguard : ¬(decide ((60 : ℕ) < 2) || !Scalar.isFinite (number (1 / 10)) ||
      decide (number (1 / 10) ≤ (0.0 : Exact))) = true := by
    have hpos : ¬number (1 / 10) ≤ (0.0 : Exact) := by
      rw [Exact.zero_literal, Exact.number_le]
      norm_num
    rw [decide_eq_false hpos]
    exact Bool.false_ne_true
  have hwidths : (Settings.standard : Settings Exact).stripWidths = 3.0 := rfl
  have hsamples : (Settings.standard : Settings Exact).samplesPerPixel = 2.0 := rfl
  unfold build
  dsimp only
  rw [hwidth, hwidths, hsamples, hcount, hstep, margin_standard, horigin]
  exact if_neg hguard

/-- A strip of sixty samples, which begins at `-3` and has ten of them to a unit, slides by five
to a view that is half a unit further. -/
theorem slide_half {s : Strip Exact} (horigin : s.origin = number (-3)) (hoffset : s.offset = 0)
    (hstep : s.step = number (1 / 10)) (hwidth : s.visibleWidth = number 2) (hsize : s.size = 60)
    (curve : Exact → Exact) : s.slide? curve (number (-1 / 2)) (number (3 / 2)) Settings.standard =
      some (s.shifted curve 5) := by
  have hspan : sameSpan s.visibleWidth (number (3 / 2) - number (-1 / 2)) = true := by
    have htwo : number (3 / 2) - number (-1 / 2) = number 2 := by
      rw [Exact.number_sub]
      norm_num
    rw [hwidth, htwo, sameSpan_self]
  -- the view is half a unit further, and so is the window: five steps of a tenth
  have hstart : s.startX = number (-3) := by
    rw [startX, horigin, hoffset, hstep]
    show number ((0 : ℤ) * (1 / 10) + -3) = number (-3)
    norm_num
  have hshift : Scalar.round ((number (-1 / 2) - margin s.visibleWidth Settings.standard -
      s.startX) / s.step) = number 5 := by
    have hsteps : (number (-1 / 2) - number 2 - number (-3)) / number (1 / 10) = number 5 := by
      rw [Exact.number_sub, Exact.number_sub, Exact.number_div _ _ (by norm_num)]
      norm_num
    rw [hwidth, margin_standard, hstart, hstep, hsteps]
    exact_mod_cast Exact.round_whole 5
  -- fewer steps than samples, so that some are kept
  have hkept : ¬(!Scalar.isFinite (number 5) ||
      decide (Scalar.ofNat s.size ≤ Scalar.abs (number 5))) = true := by
    have hless : ¬(Scalar.ofNat s.size : Exact) ≤ Scalar.abs (number 5) := by
      rw [hsize]
      show ¬number (60 : ℤ) ≤ number |(5 : ℝ)|
      rw [Exact.number_le]
      norm_num
    rw [decide_eq_false hless]
    exact Bool.false_ne_true
  have hwhole : Scalar.toInt (number 5) = 5 := by
    show Exact.whole 5 = 5
    rw [Exact.whole, if_pos (by norm_num)]
    norm_num
  have hany :
      ¬(s.isEmpty || !sameSpan s.visibleWidth (number (3 / 2) - number (-1 / 2))) = true := by
    rw [hspan, isEmpty, hsize]
    exact Bool.false_ne_true
  unfold slide?
  dsimp only
  rw [if_neg hany, hshift, if_neg hkept, hwhole]

/-- The strip of `y = x` over a view from `-1` to `1`, ten pixels wide, that is slid by five steps:
it gives the line between its samples. -/
theorem valueAt_reached_diagonal : ∃ s : Strip Exact, Reached s ∧ s.isEmpty = false ∧
    s.offset = 5 ∧ s.valueAt (number (3 / 100)) = number (3 / 100) := by
  have haccurate := accurate_build id (number (-1)) (number 1) (number 10) Settings.standard
  have hbuilt : Reached (build id (number (-1)) (number 1) (number 10) Settings.standard) :=
    .build _ _ _ _ _
  generalize hs : build id (number (-1)) (number 1) (number 10) Settings.standard = s at *
  -- the strip is known by its parts from here on
  have hsize : s.size = 60 := by
    rw [← hs, build_diagonal]
    simp [size, RingBuffer.size, RingBuffer.ofArray]
  rw [build_diagonal] at hs
  have hslid : Reached (s.shifted id 5) := .slide id _ _ _ hbuilt
    (slide_half (by rw [← hs]) (by rw [← hs]) (by rw [← hs]) (by rw [← hs]) hsize id)
  have hmoved : (s.shifted id 5).Accurate id := haccurate.shifted (by rw [hsize]; decide)
  have hsixty : (s.shifted id 5).size = 60 := (size_shifted s id 5).trans hsize
  have hne : (s.shifted id 5).isEmpty = false := by
    rw [isEmpty, hsixty]
    rfl
  refine ⟨s.shifted id 5, hslid, hne, by rw [← hs]; rfl, ?_⟩
  obtain ⟨start, step, -, hstep, hstart, -, hsamples, hbetween, -⟩ := valueAt_reached hslid hne
  -- the step and the start that the theorem speaks of are those of this strip
  have htenth : step = 1 / 10 := by
    rw [← hs] at hstep
    exact (Exact.number.inj hstep).symm
  have hbegin : start = -5 / 2 := by
    rw [← hs] at hstart
    have hplace : number (((5 : ℤ) : ℝ) * (1 / 10) + -3) = number start := hstart
    rw [← Exact.number.inj hplace]
    norm_num
  have hsample : ∀ i < 60, (s.shifted id 5).sampleAt i = number (start + i * step) := by
    intro i hi
    obtain ⟨hplace, hslot, -⟩ := hsamples i (hsixty.symm ▸ hi)
    rw [← hplace]
    exact Option.some.inj (hslot.symm.trans (hmoved i (hsixty.symm ▸ hi)))
  have hvalue := (hbetween 25 (3 / 100) (by omega) (by rw [htenth, hbegin]; norm_num)
    (by rw [htenth, hbegin]; norm_num)).1 _ _ (hsample 25 (by decide)) (hsample 26 (by decide))
  rw [hvalue, htenth, hbegin]
  norm_num

end CurvePlot.Strip
