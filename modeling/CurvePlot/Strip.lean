import CurvePlot.RingBuffer
import CurvePlot.Settings
/-!
# Strips of samples

A strip holds samples of a curve at equal steps over a window wider than the
visible range. When the view moves by whole steps the strip slides along: only
the samples that come into its window are taken.

Sample `i` is the curve's value at `sampleX i`, the point
`(offset + i) · step + origin` computed with one rounding.
-/

namespace CurvePlot

/-- Samples of a curve over a window. -/
structure Strip (α : Type) where
  /-- Where the strip began when it was built. -/
  origin : α
  /-- How many steps it has slid since. -/
  offset : Int
  /-- The distance between samples. -/
  step : α
  /-- The samples of the window. -/
  samples : RingBuffer α
  /-- The width of the visible range it was built for. -/
  visibleWidth : α
  /-- The width of the surface it was built for. -/
  pixelWidth : α
deriving Repr

namespace Strip

variable {α : Type} [Scalar α]

/-- The point that lies `k` steps from where the strip was built. -/
@[specialize]
def place (origin step : α) (k : Int) : α := Scalar.fma (Scalar.ofInt k) step origin

/-- The curve at `count` places from the `first` on. -/
@[specialize]
def sample (curve : α → α) (origin step : α) (first : Int) (count : Nat) : List α :=
  (List.range count).map fun (k : Nat) => curve (place origin step (first + k))

/-- How far left of the visible range the window begins. -/
@[specialize]
def margin (visibleWidth : α) (s : Settings α) : α := visibleWidth * (s.stripWidths - 1.0) / 2.0

/-- **The strip for a visible range.** It has no samples if there would be fewer
than two, or none apart. -/
@[specialize]
def build (curve : α → α) (min max pixelWidth : α) (s : Settings α) : Strip α :=
  let visibleWidth := max - min
  let count := Scalar.toNat (pixelWidth * s.stripWidths * s.samplesPerPixel)
  let step := visibleWidth * s.stripWidths / Scalar.ofNat count
  if count < 2 || !Scalar.isFinite step || decide (step ≤ 0.0) then
    ⟨0.0, 0, 0.0, .empty, visibleWidth, pixelWidth⟩
  else
    let origin := min - margin visibleWidth s
    ⟨origin, 0, step, .ofArray (sample curve origin step 0 count).toArray, visibleWidth,
      pixelWidth⟩

def size (s : Strip α) : Nat := s.samples.size

def isEmpty (s : Strip α) : Bool := s.size == 0

/-- Where the `i`th sample was taken. -/
@[specialize]
def sampleX (s : Strip α) (i : Nat) : α := place s.origin s.step (s.offset + i)

/-- Where the sample of an index of 64 bits would have been taken. Counting goes
round, so that the greatest indices lie right before the window. -/
@[specialize]
def wrappedX (s : Strip α) (i : UInt64) : α :=
  place s.origin s.step (Int.bmod (s.offset + i.toNat) 0x10000000000000000)

/-- Where the window begins. -/
@[specialize]
def startX (s : Strip α) : α := place s.origin s.step s.offset

/-- Where the last sample was taken. -/
@[specialize]
def endX (s : Strip α) : α := Scalar.fma (Scalar.ofNat (s.size - 1)) s.step s.startX

/-- The `i`th sample. -/
@[specialize]
def sampleAt (s : Strip α) (i : Nat) : α := (s.samples.get? i).getD Scalar.undefined

/-- The place of `x` in steps from the window's start, a whole number if it
nearly is one. -/
@[specialize]
def indexOf (s : Strip α) (x : α) : α :=
  let index := (x - s.startX) / s.step
  let nearest := Scalar.round index
  if Scalar.abs (index - nearest) < (1e-9 : α) then nearest else index

/-- **The curve as the samples give it:** linear between two samples, undefined
outside the window. -/
@[specialize]
def valueAt (s : Strip α) (x : α) : α :=
  let index := s.indexOf x
  if s.size < 2 || !Scalar.isFinite index || decide (index < 0.0) then Scalar.undefined
  else
    let i := Scalar.toNat (Scalar.floor index)
    let t := index - Scalar.ofNat i
    -- the last sample has nothing to its right, and needs nothing if it is hit exactly
    if s.size ≤ i || (decide ((0.0 : α) < t) && decide (s.size ≤ i + 1)) then Scalar.undefined
    else
      let y0 := s.sampleAt i
      if t == (0.0 : α) then y0 else Scalar.fma t (s.sampleAt (i + 1) - y0) y0

/-- Whether two widths are the same up to a billionth. -/
@[specialize]
def sameSpan (a b : α) : Bool :=
  Scalar.abs (a - b) ≤ (1e-9 : α) * Scalar.max (Scalar.abs a) (Scalar.abs b)

/-- Whether the strip still serves a view of this range and surface. -/
@[specialize]
def serves (s : Strip α) (min max pixelWidth : α) : Bool :=
  !s.isEmpty && s.pixelWidth == pixelWidth && sameSpan s.visibleWidth (max - min)
    && decide (s.startX ≤ min) && decide (max ≤ s.endX)

/-- The strip moved by whole steps; samples that come into the window are taken
from the curve. -/
@[specialize]
def shifted (s : Strip α) (curve : α → α) (shift : Int) : Strip α :=
  let count := shift.natAbs
  -- forward they follow the last sample, back they precede the first
  let samples :=
    if 0 < shift then
      s.samples.advance (sample curve s.origin s.step (s.offset + s.size) count)
    else s.samples.retreat (sample curve s.origin s.step (s.offset + shift) count)
  { s with samples := samples, offset := s.offset + shift }

/-- **The strip slid to a visible range** of unchanged width; none if it would keep
no sample. -/
@[specialize]
def slide? (s : Strip α) (curve : α → α) (min max : α) (settings : Settings α) :
    Option (Strip α) :=
  if s.isEmpty || !sameSpan s.visibleWidth (max - min) then none
  else
    -- the shift is rounded to whole steps, so the places of the samples stay on one grid
    let wanted := min - margin s.visibleWidth settings
    let shift := Scalar.round ((wanted - s.startX) / s.step)
    if !Scalar.isFinite shift || decide (Scalar.ofNat s.size ≤ Scalar.abs shift) then none
    else some (s.shifted curve (Scalar.toInt shift))

end Strip

end CurvePlot
