import CurvePlot.Double.Distance
/-!
# Segments

The pieces that an implicit curve is drawn in.
-/

namespace CurvePlot

/-- A piece of a curve between two points of the plane. -/
structure Segment (α : Type) where
  x1 : α
  y1 : α
  x2 : α
  y2 : α
deriving Repr, DecidableEq

namespace Segment

/-- The point halfway. -/
def midpoint (s : Segment Float) : Float × Float :=
  (Double.midpoint s.x1 s.x2, Double.midpoint s.y1 s.y2)

/-- The distance between the ends. -/
def length (s : Segment Float) : Float := Double.hypot (s.x2 - s.x1) (s.y2 - s.y1)

end Segment

end CurvePlot
