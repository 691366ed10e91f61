import CurvePlot.Double.Dyadic
/-!
# Distances and midpoints of doubles

`hypot` is the length of a vector without overflow or underflow on the way. The
square root of the sum of squares is corrected once by the error that it leaves,
after the larger side has been scaled into the middle of the range; a side too
small to matter is only added. `midpoint` is the mean of two numbers whose sum
may be out of range.
-/

namespace CurvePlot.Double

/-- The length of `(a, b)` for `b ≤ a` of moderate size: the root of the squares
less half its error. -/
def correctedRoot (a b : Float) : Float :=
  let h := (a * a + b * b).sqrt
  let error :=
    if h ≤ 2.0 * b then
      let d := h - b
      a * (2.0 * d - a) + (d - 2.0 * (a - b)) * d
    else
      let d := h - a
      2.0 * d * (a - 2.0 * b) + ((4.0 * d - b) * b + d * d)
  h - error / (2.0 * h)

/-- `2 ^ -600`, which takes the largest doubles to where squares stay finite. -/
def shrink : Float := Float.ofBits 0x1A70000000000000

/-- `2 ^ -54`: a side that much shorter than the other no longer shows. -/
def negligible : Float := Float.ofBits 0x3C90000000000000

/-- `2 ^ 511`, above which squares leave the range. -/
def large : Float := Float.ofBits 0x5FE0000000000000

/-- `2 ^ -459`, below which squares lose digits. -/
def tiny : Float := Float.ofBits 0x2340000000000000

/-- The length of `(a, b)` for `0 ≤ b ≤ a`, scaled to a moderate size on the way. -/
def hypotOrdered (a b : Float) : Float :=
  if large < a then
    if b ≤ a * negligible then a + b
    else correctedRoot (a * shrink) (b * shrink) / shrink
  else if b < tiny then
    if b / negligible ≤ a then a + b
    else correctedRoot (a / shrink) (b / shrink) * shrink
  else if b ≤ a * negligible then a + b
  else correctedRoot a b

/-- The length of the vector `(x, y)`. An infinite side makes it infinite, also
beside an undefined one. -/
def hypot (x y : Float) : Float :=
  if x.isInf || y.isInf then infinity
  else if x.isNaN || y.isNaN then x + y
  else if x.abs < y.abs then hypotOrdered y.abs x.abs
  else hypotOrdered x.abs y.abs

/-- The greatest finite double. -/
def greatest : Float := Float.ofBits 0x7FEFFFFFFFFFFFFF

/-- Twice the least positive normal double. -/
def twiceLeastNormal : Float := Float.ofBits 0x0020000000000000

/-- The mean of two numbers, halved before the addition where the sum could
overflow. -/
def midpoint (a b : Float) : Float :=
  let half := greatest / 2.0
  if a.abs ≤ half && b.abs ≤ half then (a + b) / 2.0
  else if a.abs < twiceLeastNormal then a + b / 2.0
  else if b.abs < twiceLeastNormal then a / 2.0 + b
  else a / 2.0 + b / 2.0

end CurvePlot.Double
