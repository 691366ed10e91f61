import CurvePlot.Color
import CurvePlot.RootScan
/-!
# Landmarks

The points of interest on the curves of a plot: where a curve meets the axes, and
where two curves meet.
-/

namespace CurvePlot

/-- A point of interest. -/
structure Landmark where
  x : Float
  y : Float
  color : Color
deriving Repr, DecidableEq

namespace Landmark

/-- The distance from a point. -/
def distance (p : Landmark) (x y : Float) : Float := Double.hypot (p.x - x) (p.y - y)

/-- Where a curve meets the `y` axis, if that is in view. -/
def yIntercept? (min max : Float) (f : Float → Float) : Option Landmark :=
  if min ≤ 0.0 ∧ 0.0 ≤ max then
    let y := f 0.0
    if y.isFinite then some ⟨0.0, y, .lightGray⟩ else none
  else none

/-- Where a curve meets the `x` axis. -/
def xIntercepts (min max step : Float) (f : Float → Float) : List Landmark :=
  (RootScan.signChanges min max step f).map fun x => ⟨x, 0.0, .lightGray⟩

/-- Where two curves meet, as roots of their difference. -/
def intersections (min max step : Float) (f g : Float → Float) : List Landmark :=
  (RootScan.signChanges min max step fun x => f x - g x).filterMap fun x =>
    let y := f x
    if y.isFinite then some ⟨x, y, .yellow⟩ else none

end Landmark

end CurvePlot
