import CurvePlot.Scene.Geometry
/-!
# Pins

Points that stay marked. Pinning a point next to a pin takes that pin away.
-/

namespace CurvePlot.Scene

/-- Pins nearer than this are the same. -/
def pinTolerance : Float := 0.01

/-- The pins that are not next to a point. -/
def pinsAwayFrom (pins : List (Float × Float)) (x y : Float) : List (Float × Float) :=
  pins.filter fun (px, py) => pinTolerance ≤ Double.hypot (px - x) (py - y)

/-- **Pins a point, or takes away the pins next to it.** The answer says whether
the point is pinned now. -/
def togglePin (s : Scene) (x y : Float) : Scene × Bool :=
  let others := pinsAwayFrom s.pins x y
  if others.length = s.pins.length then ({ s with pins := others ++ [(x, y)] }, true)
  else ({ s with pins := others }, false)

def clearPins (s : Scene) : Scene := { s with pins := [] }

/-- A click on a pixel pins the landmark under it, or takes its pin away. Nothing
happens if there is no landmark. -/
def click (s : Scene) (px py : Float) : Scene × Option Bool :=
  match (s.hover px py).filter (·.snappable) with
  | none => (s, none)
  | some h =>
    let (s, pinned) := s.togglePin h.point.x h.point.y
    (s, some pinned)

end CurvePlot.Scene
