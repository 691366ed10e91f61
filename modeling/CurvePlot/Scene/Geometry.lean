import CurvePlot.Scene.Refresh
/-!
# What a scene shows

The points, polylines and contours that a scene has to draw, and what lies under
the cursor.
-/

namespace CurvePlot.Scene

/-- The value of a graph, undefined if the number is not that of one. -/
def curveY (s : Scene) (id : Nat) (x : Float) : Float :=
  match (s.rows.get? id).filter fun r => r.equation.isExplicit with
  | some r => r.valueAt x
  | none => Double.undefined

/-- The points of a graph over the pixel columns of a view, from left to right. -/
def columnPoints (view : Viewport Float) (f : Float → Float) : List (Float × Float) :=
  (List.range (Double.toNat (Double.ceil view.width))).map fun column =>
    let x := (view.toPlane (Float.ofNat column) 0.0).1
    (x, f x)

/-- **Joins the points of columns to strokes.** Between strokes stands a break, a
point without a second coordinate: where the graph has no value, and where it
jumps by more than the height of the view. The height on the screen of the point
before is given, if the stroke goes on. -/
def strokes (view : Viewport Float) (before : Option Float) :
    List (Float × Float) → List (Float × Float)
  | [] => []
  | (x, y) :: rest =>
    let gap := (x, Double.undefined)
    if y.isFinite then
      let height := (view.toPixel x y).2
      -- no break between points of one stroke, unless the graph leaps over the whole view
      let jumps := before.any fun h => view.height < (height - h).abs
      (if jumps then [gap] else []) ++ (x, y) :: strokes view (some height) rest
    else (if before.isSome then [gap] else []) ++ strokes view none rest

/-- The polyline of a graph, without points if the number is not that of one. -/
def polyline (s : Scene) (id : Nat) : List (Float × Float) :=
  match (s.rows.get? id).filter fun r => r.equation.isExplicit with
  | some r => strokes s.viewport none (columnPoints s.viewport r.valueAt)
  | none => []

/-- Whether a contour that is kept may be drawn in the current view: a fine one
within the tolerance, a preview only where it was traced. -/
def shows (s : Scene) (c : Contour Float) : Bool :=
  c.isReusable s.viewport (if c.isFine then s.settings.driftTolerance else 0.0)

/-- **The contour to draw for an implicit curve.** If none is kept that may be
drawn, a preview is traced and kept. -/
def contour (s : Scene) (id : Nat) : Scene × Option (Contour Float) :=
  match (s.rows.get? id).filter fun r => r.equation.isImplicit with
  | none => (s, none)
  | some r =>
    match r.contour.filter s.shows with
    | some c => (s, some c)
    | none =>
      let c := previewOf s.settings s.viewport r.equation
      (s.updateRow id fun r => { r with contour := some c }, some c)

/-- The points among the equations, with their numbers and colors. -/
def points (s : Scene) : List (Nat × Landmark) :=
  s.rows.entries.filterMap fun (id, r) =>
    r.equation.point?.map fun (x, y) => (id, ⟨x, y, r.color⟩)

/-- What lies under the cursor. -/
structure Hover where
  point : Landmark
  /-- Whether it can be pinned. -/
  snappable : Bool
deriving Repr, DecidableEq

/-- The first of the entries with the least distance. -/
def nearest {α : Type} : List (Float × α) → Option (Float × α)
  | [] => none
  | a :: rest => some (rest.foldl (fun best b => if b.1 < best.1 then b else best) a)

/-- **What lies under a pixel:** an intersection that is near enough, or else an
intercept, or else the point of the nearest graph right above or below. -/
def hover (s : Scene) (px py : Float) : Option Hover :=
  let (x, y) := s.viewport.toPlane px py
  let threshold := s.settings.snapThreshold / s.viewport.scale
  let isNear (p : Landmark) : Bool := p.distance x y < threshold
  match (s.intersections.find? isNear).or (s.intercepts.find? isNear) with
  | some p => some ⟨p, true⟩
  | none =>
    let graphs := s.rows.values.filter fun r => r.equation.isExplicit
    let near := graphs.filterMap fun r =>
      let value := r.valueAt x
      let distance := (value - y).abs
      if distance < threshold then some (distance, (⟨x, value, r.color⟩ : Landmark)) else none
    (nearest near).map fun (_, p) => ⟨p, false⟩

end CurvePlot.Scene
