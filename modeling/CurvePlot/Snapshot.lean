import CurvePlot.Scene.Geometry
/-!
# Snapshots

A snapshot holds all that is needed to draw one frame of a scene. Taking one
leaves the scene as it is, except that a preview is kept for each implicit curve
of which nothing was kept that may be drawn.
-/

namespace CurvePlot

/-- What there is to draw of a curve. -/
inductive Shape where
  /-- The points of strokes, between which stand points without second
  coordinate. -/
  | polyline (points : List (Float × Float))
  /-- The segments of a traced curve. -/
  | contour (quality : Quality) (segments : List (Segment Float))

/-- A curve in a snapshot. -/
structure CurveView where
  id : Nat
  text : String
  color : Color
  /-- What its equation says about `y`. -/
  classification : Classification
  /-- Why its equation has no meaning, if it has none. -/
  error? : Option String
  parameters : Parameter.Table
  shape : Shape

/-- One frame of a scene. -/
structure Snapshot where
  viewport : Viewport Float
  grid : Float × Float
  /-- All equations that are no points. -/
  curves : List CurveView
  /-- The points among the equations, with their numbers. -/
  points : List (Nat × Landmark)
  intercepts : List Landmark
  intersections : List Landmark
  pins : List (Float × Float)

namespace Scene

/-- The scene with a contour kept for each implicit curve that may be drawn. -/
def prepared (s : Scene) : Scene := s.rows.keys.foldl (fun s id => (s.contour id).1) s

/-- What there is to draw of an equation. -/
def shape (s : Scene) (id : Nat) : Shape :=
  match (s.contour id).2 with
  | some c => .contour c.quality c.segments
  | none => .polyline (s.polyline id)

/-- An equation as a curve of a snapshot, unless it is a point. -/
def curveView? (s : Scene) (id : Nat) (r : Row) : Option CurveView :=
  if r.equation.point?.isSome then none
  else some
    { id := id
      text := r.equation.raw
      color := r.color
      classification := r.equation.classification
      error? := r.equation.error?.map CompileError.message
      parameters := r.equation.parameters
      shape := s.shape id }

/-- The frame that a prepared scene shows. -/
def frame (s : Scene) : Snapshot where
  viewport := s.viewport
  grid := Viewport.gridSteps s.viewport.scale
  curves := s.rows.entries.filterMap fun (id, r) => s.curveView? id r
  points := s.points
  intercepts := s.intercepts
  intersections := s.intersections
  pins := s.pins

/-- **Takes a snapshot.** -/
def snapshot (s : Scene) : Scene × Snapshot := (s.prepared, s.prepared.frame)

end Scene

end CurvePlot
