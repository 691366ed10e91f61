import CurvePlot.Proofs.Double.Counts
import CurvePlot.Proofs.Window
import CurvePlot.Scene.Refresh
/-!
# Samples of the curve

A strip is accurate if each of its samples is the curve at the place of that sample
(`Strip.Accurate`). It is when it is built, and sliding keeps it so: a sample that stays
in the window changes its index and the strip its offset by the same amount, and the
samples that come in are taken where the window has room for them.

Sliding back fills the window from the front, which goes wrong if there are more fresh
samples than places. `slide?` therefore compares the shift with the number of samples,
and it does so in doubles; `Double.natAbs_toInt_le` says that this is enough.
-/

namespace CurvePlot

namespace Strip

section

variable {α : Type} [Scalar α]

/-- Every sample is the curve at its place. -/
def Accurate (curve : α → α) (s : Strip α) : Prop :=
  ∀ i, i < s.size → s.samples.get? i = some (curve (s.sampleX i))

/-- There are as many samples as places. -/
@[simp]
theorem length_sample (curve : α → α) (origin step : α) (first : Int) (count : Nat) :
    (sample curve origin step first count).length = count := by
  simp [sample]

/-- Each sample is the curve at its place. -/
theorem getElem?_sample (curve : α → α) (origin step : α) (first : Int) {count i : Nat}
    (h : i < count) :
    (sample curve origin step first count)[i]? = some (curve (place origin step (first + i))) := by
  simp [sample, h]

/-- A strip is accurate when it is built. -/
theorem accurate_build (curve : α → α) (min max pixelWidth : α) (s : Settings α) :
    (build curve min max pixelWidth s).Accurate curve := by
  intro i hi
  unfold build at hi ⊢
  dsimp only at hi ⊢
  split
  · -- no samples are taken at all
    next hnone =>
    rw [if_pos hnone] at hi
    exact absurd hi (Nat.not_lt_zero i)
  · next hsome =>
    rw [if_neg hsome] at hi
    rw [RingBuffer.get?_ofArray, List.getElem?_toArray, getElem?_sample]
    · rfl
    · simpa [size, RingBuffer.size, RingBuffer.ofArray] using hi

/-- A strip that slides has as many samples as before. -/
@[simp]
theorem size_shifted (s : Strip α) (curve : α → α) (shift : Int) :
    (s.shifted curve shift).size = s.size := by
  unfold Strip.shifted size
  dsimp only
  split
  · rw [RingBuffer.size_advance]
  · rw [RingBuffer.size_retreat]

/-- **A strip stays accurate when it slides,** as long as not more samples come into the
window than it has room for. -/
theorem Accurate.shifted {curve : α → α} {s : Strip α} (h : s.Accurate curve) {shift : Int}
    (hshift : shift.natAbs ≤ s.size) : (s.shifted curve shift).Accurate curve := by
  intro i hi
  rw [size_shifted] at hi
  unfold Strip.shifted sampleX
  dsimp only
  split
  · -- forward: what stays moves to the front, and the fresh samples follow it
    next hpos =>
    rw [RingBuffer.get?_advance _ _ hi, length_sample]
    split
    · next hold =>
      rw [h _ hold, sampleX]
      congr 3
      omega
    · next hnew =>
      have hlt : i + shift.natAbs - s.samples.size < shift.natAbs := by
        have hn : s.size = s.samples.size := rfl
        omega
      rw [getElem?_sample curve _ _ _ hlt]
      congr 3
      have hn : s.size = s.samples.size := rfl
      omega
  · -- back: the fresh samples stand in front, and they all have to have room
    next hneg =>
    rw [RingBuffer.get?_retreat _ _ (by rw [length_sample]; exact hshift) hi, length_sample]
    split
    · next hnew => rw [getElem?_sample curve _ _ _ hnew]
    · next hold =>
      rw [h _ (by omega), sampleX]
      congr 3
      omega

end

/-- **A strip slides by whole steps,** and by no more of them than it has samples. -/
theorem exists_shift_of_slide {curve : Float → Float} {s s' : Strip Float} {min max : Float}
    {settings : Settings Float} (hs : s.slide? curve min max settings = some s') :
    ∃ shift : Int, shift.natAbs ≤ s.size ∧ s' = s.shifted curve shift := by
  unfold slide? at hs
  dsimp only at hs
  split at hs
  · cases hs
  · split at hs
    · cases hs
    · -- the shift was compared with the number of samples, but as a double
      next hshift =>
      simp only [Bool.or_eq_true, Bool.not_eq_true', decide_eq_true_eq, not_or,
        Bool.not_eq_false] at hshift
      exact ⟨_, Double.natAbs_toInt_le hshift.1 hshift.2, (Option.some.inj hs).symm⟩

/-- **A strip stays accurate when it slides to another range.** -/
theorem Accurate.slide {curve : Float → Float} {s s' : Strip Float} (h : s.Accurate curve)
    {min max : Float} {settings : Settings Float}
    (hs : s.slide? curve min max settings = some s') : s'.Accurate curve := by
  obtain ⟨shift, hshift, rfl⟩ := exists_shift_of_slide hs
  exact h.shifted hshift

end Strip

namespace Scene

/-- **The strip for a view is accurate,** whether the old one is kept, slid or given up. -/
theorem accurate_refreshedStrip (settings : Settings Float) (view : Viewport Float)
    (eq : Equation) {old : Option (Strip Float)}
    (h : ∀ strip, old = some strip → strip.Accurate eq.curve) :
    (refreshedStrip settings view eq old).Accurate eq.curve := by
  unfold refreshedStrip
  cases old with
  -- there is nothing to slide
  | none => exact Strip.accurate_build eq.curve _ _ _ settings
  | some strip =>
    have hstrip : strip.Accurate eq.curve := h strip rfl
    dsimp only [Option.bind_eq_bind, Option.bind_some]
    split
    · -- the strip is still used as it is
      exact hstrip
    · cases hslide : strip.slide? eq.curve view.rangeX.1 view.rangeX.2 settings with
      | none => exact Strip.accurate_build eq.curve _ _ _ settings
      | some slid =>
        rw [Option.filter_some]
        split
        · exact hstrip.slide hslide
        · exact Strip.accurate_build eq.curve _ _ _ settings

end Scene

end CurvePlot
