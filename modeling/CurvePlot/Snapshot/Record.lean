import CurvePlot.Document
import CurvePlot.Snapshot
import CurvePlot.Text.Quoted
/-!
# Snapshots as documents

How a snapshot is written to a file: numbers with a point, texts in quotes, a
message only where there is one.

An undefined number may have a minus sign on paper though the number itself has no
sign. Whoever writes a snapshot says by `MinusSigns` what was asked for with one.
-/

namespace CurvePlot

/-- Which of the numbers that were asked for had a minus sign. It shows where they
are undefined. -/
structure MinusSigns where
  centerX : Bool
  centerY : Bool
  width : Bool
  height : Bool
  /-- Whether the value for the sliders of a letter had one. -/
  slider : Char → Bool

namespace Document

/-- A number, written with a point. -/
def number (v : Float) : Document := .atom (Decimal.withPoint v)

/-- A number, written with a point, and with a minus sign if it is undefined and is
to have one. -/
def signed (minus : Bool) (v : Float) : Document :=
  if minus && v.isNaN then .atom "-NaN" else number v

/-- Whether an undefined coordinate has a minus sign. An undefined center hands on
its own sign; a center at infinity makes the coordinate a difference of infinite
numbers, which has one. -/
def coordinateSign (center : Float) (minus : Bool) : Bool := minus || !center.isNaN

def count (n : Nat) : Document := .atom (toString n)

def quoted (text : String) : Document := .atom (Text.quoted text)

def letter (c : Char) : Document := .atom (String.ofList ['\'', c, '\''])

/-- A record of numbers under their names. -/
def numbers (name : String) (fields : List (String × Float)) : Document :=
  .record name (fields.map fun (name, v) => .field name (number v))

def pair (p : Float × Float) : Document := .record "" [number p.1, number p.2]

def color (c : Color) : Document :=
  .record "" [.field "r" (count c.r.toNat), .field "g" (count c.g.toNat),
    .field "b" (count c.b.toNat)]

/-- What a point and its color are, under their names. -/
def landmarkFields (p : Landmark) : List Document :=
  [.field "x" (number p.x), .field "y" (number p.y), .field "color" (color p.color)]

/-- What an equation says about `y`. -/
def classification : Classification → Document
  | .explicit => .atom "Explicit"
  | .implicit => .atom "Implicit"
  | .linearInY => .atom "LinearInY"
  | .point x y => numbers "Point" [("x", x), ("y", y)]

/-- A slider under its letter. -/
def slider (minus : Char → Bool) (name : Char) (p : Parameter) : Document :=
  .record "" [.field "name" (letter name), .field "value" (signed (minus name) p.value),
    .field "range" (numbers "" [("min", p.min), ("max", p.max)])]

/-- How a contour was traced. -/
def quality : Quality → Document
  | .preview => .atom "Preview"
  | .fine => .atom "Fine"

/-- A point of a polyline. The second coordinate of a break has no minus sign. -/
def vertex (minusX : Bool) (p : Float × Float) : Document :=
  .record "" [signed minusX p.1, number p.2]

/-- A segment by its ends. -/
def segment (minusX minusY : Bool) (s : Segment Float) : Document :=
  .record ""
    [.field "x1" (signed minusX s.x1), .field "y1" (signed minusY s.y1),
     .field "x2" (signed minusX s.x2), .field "y2" (signed minusY s.y2)]

/-- What there is to draw of a curve. -/
def shape (minusX minusY : Bool) : Shape → Document
  | .polyline points => .wrapped "Polyline" (.list (points.map (vertex minusX)))
  | .contour q segments =>
    .record "Contour"
      [.field "quality" (quality q),
       .field "segments" (.list (segments.map (segment minusX minusY)))]

/-- A curve under a camera. -/
def curve (minus : MinusSigns) (camera : Camera Float) (c : CurveView) : Document :=
  let sliders := c.parameters.entries.map fun (name, p) => slider minus.slider name p
  .record "" (
    [.field "id" (count c.id), .field "text" (quoted c.text), .field "color" (color c.color),
      .field "classification" (classification c.classification)]
    ++ (c.error?.map fun e => .field "error" (.wrapped "Some" (quoted e))).toList
    ++ [.field "parameters" (.list sliders),
      .field "geometry" (shape (coordinateSign camera.x minus.centerX)
        (coordinateSign camera.y minus.centerY) c.shape)])

def snapshot (minus : MinusSigns) (s : Snapshot) : Document :=
  let camera := s.viewport.camera
  .record ""
    [.field "view" (.record ""
      [.field "center_x" (signed minus.centerX camera.x),
       .field "center_y" (signed minus.centerY camera.y),
       .field "scale" (number camera.scale)]),
     .field "width" (signed minus.width s.viewport.width),
     .field "height" (signed minus.height s.viewport.height),
     .field "grid" (pair s.grid),
     .field "curves" (.list (s.curves.map (curve minus camera))),
     .field "points" (.list (s.points.map fun (id, p) =>
      .record "" (.field "id" (count id) :: landmarkFields p))),
     .field "intercepts" (.list (s.intercepts.map fun p => .record "" (landmarkFields p))),
     .field "intersections" (.list (s.intersections.map fun p => .record "" (landmarkFields p))),
     .field "pins" (.list (s.pins.map pair))]

end Document

end CurvePlot
