import CurvePlot.Proofs.Samples
import Mathlib.Data.List.Basic
/-!
# Rows of slides

A strip is built once and then slides along with the view, forward and back, while its ring
buffer begins at an ever different slot. `Strip.slides_window` says that none of this shows:
after any row of slides the buffer holds the very list of samples that sampling the whole
window anew would give.

A strip never forgets where it was built: its origin, its step and its number of samples
stay, and only the offset of its window counts the steps (`Strip.Slid`). Sample `i` of the
window is therefore always taken at one and the same double, and the samples agree bit by
bit.
-/

namespace CurvePlot.Strip

variable {curve : Float → Float} {settings : Settings Float} {s s' s'' : Strip Float}

/-! ### The window as a list -/

/-- **An accurate strip holds what sampling its window anew would give.** -/
theorem Accurate.toList_eq (h : s.Accurate curve) :
    s.samples.toList = sample curve s.origin s.step s.offset s.size := by
  have hget : ∀ i ∈ List.range s.samples.size,
      s.samples.get? i = some (curve (place s.origin s.step (s.offset + i))) :=
    fun i hi => h i (List.mem_range.mp hi)
  exact List.filterMap_eq_map_iff_forall_eq_some.mpr hget

/-! ### One slide and a row of them -/

/-- The strip has slid by at most `count` windows. -/
structure Slid (count : Nat) (s s' : Strip Float) : Prop where
  /-- The number of samples stays, -/
  size : s'.size = s.size
  /-- and so do the step -/
  step : s'.step = s.step
  /-- and the origin. -/
  origin : s'.origin = s.origin
  /-- A slide moves the window by no more than its length. -/
  offset : (s'.offset - s.offset).natAbs ≤ count * s.size

/-- A strip that stays has not slid. -/
theorem Slid.refl (s : Strip Float) : Slid 0 s s where
  size := rfl
  step := rfl
  origin := rfl
  offset := by
    rw [Int.sub_self]
    exact Nat.zero_le _

/-- Two rows of slides are one, as long as both. -/
theorem Slid.trans {m n : Nat} (h : Slid m s s') (h' : Slid n s' s'') : Slid (m + n) s s'' where
  size := h'.size.trans h.size
  step := h'.step.trans h.step
  origin := h'.origin.trans h.origin
  offset := by
    have hfirst : (s'.offset - s.offset).natAbs ≤ m * s.size := h.offset
    have hsecond : (s''.offset - s'.offset).natAbs ≤ n * s.size := h.size ▸ h'.offset
    rw [Nat.add_mul]
    omega

/-- What a slide makes of a strip, which stays as it is if the slide is refused. -/
def slideTo (curve : Float → Float) (settings : Settings Float) (s : Strip Float)
    (range : Float × Float) : Strip Float :=
  (s.slide? curve range.1 range.2 settings).getD s

/-- What a row of slides makes of a strip. -/
def slides (curve : Float → Float) (settings : Settings Float) (s : Strip Float)
    (ranges : List (Float × Float)) : Strip Float :=
  ranges.foldl (slideTo curve settings) s

/-- A refused slide changes nothing. -/
theorem slideTo_of_refused {range : Float × Float}
    (h : s.slide? curve range.1 range.2 settings = none) :
    slideTo curve settings s range = s := by
  unfold slideTo
  rw [h, Option.getD_none]

/-- One slide moves the window by at most its length. -/
theorem slid_slideTo (curve : Float → Float) (settings : Settings Float) (s : Strip Float)
    (range : Float × Float) : Slid 1 s (slideTo curve settings s range) := by
  unfold slideTo
  cases hslide : s.slide? curve range.1 range.2 settings with
  | none =>
    -- the slide is refused
    refine { Slid.refl s with offset := ?_ }
    rw [Option.getD_none, Int.sub_self]
    exact Nat.zero_le _
  | some slid =>
    obtain ⟨shift, hshift, rfl⟩ := exists_shift_of_slide hslide
    refine ⟨size_shifted s curve shift, rfl, rfl, ?_⟩
    show (s.offset + shift - s.offset).natAbs ≤ 1 * s.size
    omega

/-- An accurate strip stays accurate, also if the slide is refused. -/
theorem Accurate.slideTo (h : s.Accurate curve) (range : Float × Float) :
    (Strip.slideTo curve settings s range).Accurate curve := by
  unfold Strip.slideTo
  cases hslide : s.slide? curve range.1 range.2 settings with
  | none => exact h
  | some slid => exact h.slide hslide

/-- A row of slides moves the window by at most its length with each. -/
theorem slid_slides (curve : Float → Float) (settings : Settings Float) (s : Strip Float)
    (ranges : List (Float × Float)) : Slid ranges.length s (slides curve settings s ranges) := by
  induction ranges generalizing s with
  | nil => exact .refl s
  | cons range ranges ih =>
    rw [List.length_cons, Nat.add_comm]
    exact (slid_slideTo curve settings s range).trans (ih _)

/-- It leaves an accurate strip accurate. -/
theorem Accurate.slides (h : s.Accurate curve) (ranges : List (Float × Float)) :
    (Strip.slides curve settings s ranges).Accurate curve := by
  induction ranges generalizing s with
  | nil => exact h
  | cons range ranges ih => exact ih (h.slideTo range)

/-- A strip is built at offset zero. -/
theorem offset_build (curve : Float → Float) (min max pixelWidth : Float)
    (settings : Settings Float) : (build curve min max pixelWidth settings).offset = 0 := by
  unfold build
  dsimp only
  split <;> rfl

/-- **Sliding agrees with sampling anew.** After any row of slides, refused ones among them,
the ring buffer holds the samples of exactly the window of the strip; number, step and
origin are those that the strip was built with; the window has moved by no more than its
length with each slide; and a slide that is refused leaves the strip as it is. -/
theorem slides_window (eq : Equation) (settings : Settings Float) (min max pixelWidth : Float)
    (ranges : List (Float × Float)) :
    let built := build eq.curve min max pixelWidth settings
    let s := slides eq.curve settings built ranges
    s.samples.toList = sample eq.curve s.origin s.step s.offset s.size ∧
      (∀ i : Fin s.size, s.samples.slots[(s.samples.start + i) % s.samples.slots.size]? =
        some (eq.curve (Double.fma (Float.ofInt (s.offset + (i : Nat))) s.step s.origin))) ∧
      s.size = built.size ∧ s.step = built.step ∧ s.origin = built.origin ∧
      s.offset.natAbs ≤ ranges.length * s.size ∧
      ∀ range, s.slide? eq.curve range.1 range.2 settings = none →
        slideTo eq.curve settings s range = s := by
  intro built s
  have haccurate : s.Accurate eq.curve :=
    (accurate_build eq.curve min max pixelWidth settings).slides ranges
  have hslid : Slid ranges.length built s := slid_slides eq.curve settings built ranges
  refine ⟨haccurate.toList_eq, fun i => ?_, hslid.size, hslid.step, hslid.origin, ?_,
    fun range hrefused => slideTo_of_refused hrefused⟩
  · rw [← RingBuffer.get?_of_lt s.samples i.isLt]
    exact haccurate i i.isLt
  · have hmoved := hslid.offset
    rw [offset_build, Int.sub_zero] at hmoved
    rw [hslid.size]
    exact hmoved

end CurvePlot.Strip
