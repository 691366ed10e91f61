import CurvePlot.Color
import CurvePlot.Contour.JobBoard
import CurvePlot.Debouncer
import CurvePlot.Landmark
import CurvePlot.Scene.Error
import CurvePlot.Strip
/-!
# Scenes

A scene holds the equations of a plot with all that is kept ready to draw them:
a strip of samples for each graph, the traced contour of each implicit curve, and
the landmarks of all graphs. It also holds what is still to come: edits that wait
for typing to rest, refreshes that wait for a slider to rest, a view that waits
for scrolling to rest, and the fine passes that run in the background.
-/

namespace CurvePlot

/-- An equation of a scene with what is kept ready to draw it. -/
structure Row where
  /-- The compiled equation with its sliders. -/
  equation : Equation
  color : Color
  /-- The samples of a graph. -/
  strip : Option (Strip Float)
  /-- The traced contour of an implicit curve. -/
  contour : Option (Contour Float)

namespace Row

/-- An equation of which nothing is kept ready. -/
def fresh (equation : Equation) (color : Color) : Row := ⟨equation, color, none, none⟩

/-- The row with nothing kept ready. -/
def evict (r : Row) : Row := { r with strip := none, contour := none }

/-- The curve at `x`: from the samples where they reach, else from the equation. -/
def valueAt (r : Row) (x : Float) : Float :=
  match r.strip with
  | some strip =>
    if strip.startX ≤ x ∧ x ≤ strip.endX then strip.valueAt x else r.equation.curve x
  | none => r.equation.curve x

/-- Whether the row takes part in the search for landmarks. -/
def isCurve (r : Row) : Bool := r.equation.isValid && r.equation.isExplicit

end Row

/-- The equations of a plot, what is kept ready to draw them, and what is still to
come. -/
structure Scene where
  settings : Settings Float
  viewport : Viewport Float
  /-- The equations by their numbers. -/
  rows : Keyed Nat Row
  /-- The number of the next equation. -/
  nextId : Nat
  /-- The colors that are given out. -/
  palette : Palette
  /-- The fine passes in the background. -/
  jobs : JobBoard
  /-- Equations whose slider has moved and is not yet at rest. -/
  refreshes : Debouncer
  /-- Equations whose text is being typed. -/
  edits : Debouncer
  /-- The texts that were typed last. -/
  pendingText : Keyed Nat String
  dragging : Bool
  /-- When scrolling will have come to rest. -/
  scrollSettlesAt : Option Nat
  intercepts : List Landmark
  intersections : List Landmark
  pins : List (Float × Float)

namespace Scene

/-- The scene without equations. -/
def new (settings : Settings Float) (width height : Float) : Scene where
  settings := settings
  viewport := .centered width height settings.defaultScale
  rows := Keyed.empty
  nextId := 0
  palette := {}
  jobs := .empty
  refreshes := .idle settings.parameterDelay
  edits := .idle settings.editDelay
  pendingText := Keyed.empty
  dragging := false
  scrollSettlesAt := none
  intercepts := []
  intersections := []
  pins := []

/-- Whether the view is moving: dragged, or scrolled and not yet at rest. -/
def isInteracting (s : Scene) : Bool := s.dragging || s.scrollSettlesAt.isSome

/-- The texts of the equations, in order. -/
def texts (s : Scene) : List String := s.rows.values.map fun r => r.equation.raw

/-- The row of that number. -/
def row (s : Scene) (id : Nat) : Except SceneError Row :=
  match s.rows.get? id with
  | some r => .ok r
  | none => .error (.unknownEquation id)

/-- The scene with one row changed. -/
def updateRow (s : Scene) (id : Nat) (f : Row → Row) : Scene :=
  { s with rows := s.rows.modify id f }

/-- The next moment at which `poll` has something to do, results of fine passes
left out. -/
def nextDeadline? (s : Scene) : Option Nat :=
  (s.edits.nextDeadline?.toList ++ s.refreshes.nextDeadline?.toList
    ++ s.scrollSettlesAt.toList).min?

/-- Whether a fine pass is awaited for an equation. -/
def isRefining (s : Scene) (id : Nat) : Bool := s.jobs.isRunning id

end Scene

end CurvePlot
