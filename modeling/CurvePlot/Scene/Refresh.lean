import CurvePlot.Scene.Basic
/-!
# Bringing a scene up to date

`refreshEquation` brings what is kept ready for one equation in line with the
current view, doing as little as it can: a strip that still serves is kept, one
that only has to slide is slid, and a contour is traced anew only if none serves.
A coarse contour is traced at once, and the fine pass is begun unless the view is
still moving.

`refreshDerived` finds all landmarks anew.
-/

namespace CurvePlot.Scene

/-- The strip of a graph for a view: the old one if it serves or can be slid so
that it does, else a new one. -/
def refreshedStrip (settings : Settings Float) (view : Viewport Float) (eq : Equation)
    (old : Option (Strip Float)) : Strip Float :=
  let (min, max) := view.rangeX
  let serves (strip : Strip Float) : Bool := strip.serves min max view.width
  let kept : Option (Strip Float) := do
    let strip ← old
    -- sliding does not check that the range is covered, so the outcome is asked again
    if serves strip then some strip
    else (strip.slide? eq.curve min max settings).filter serves
  kept.getD (.build eq.curve min max view.width settings)

/-- The contour of the coarse pass under a view. -/
def previewOf (settings : Settings Float) (view : Viewport Float) (eq : Equation) :
    Contour Float :=
  ⟨Contour.coarse eq.field view settings, view, .preview⟩

/-- Whether a fine contour is kept that still serves the view. -/
def hasFine (s : Scene) (r : Row) : Bool :=
  r.contour.any fun c => c.isFine && c.isReusable s.viewport s.settings.driftTolerance

/-- The contour that is kept while the fine pass runs: the old one if it was
traced under this very view, else a preview. -/
def standIn (s : Scene) (r : Row) : Contour Float :=
  match r.contour.filter fun c => c.isReusable s.viewport 0.0 with
  | some c => c
  | none => previewOf s.settings s.viewport r.equation

/-- Begins the fine pass of an equation, unless the view is moving or that very
pass is running. -/
def requestFine (s : Scene) (id : Nat) (eq : Equation) : Scene :=
  if s.isInteracting || s.jobs.isRunningFor id s.viewport then s
  else { s with jobs := s.jobs.spawn id eq s.viewport s.settings }

/-- **Brings one equation up to date** with the current view. -/
def refreshEquation (s : Scene) (id : Nat) : Scene :=
  match s.rows.get? id with
  | none => s
  | some r =>
    match r.equation.classification with
    | .point _ _ => s
    | .explicit | .linearInY =>
      let strip := refreshedStrip s.settings s.viewport r.equation r.strip
      s.updateRow id fun r => { r with strip := some strip }
    | .implicit =>
      if s.hasFine r then s
      else
        -- something is there to be drawn until the fine pass is over
        let contour := s.standIn r
        (s.updateRow id fun r => { r with contour := some contour }).requestFine id r.equation

/-- The intercepts of one graph: with the `y` axis, then with the `x` axis. -/
def interceptsOf (min max step : Float) (r : Row) : List Landmark :=
  (Landmark.yIntercept? min max r.valueAt).toList
    ++ Landmark.xIntercepts min max step r.valueAt

/-- All pairs of members of a list, in order. -/
def pairs {α : Type} : List α → List (α × α)
  | [] => []
  | a :: rest => rest.map (fun b => (a, b)) ++ pairs rest

/-- **Finds the landmarks of all graphs** in the visible range. -/
def refreshDerived (s : Scene) : Scene :=
  let (min, max) := s.viewport.rangeX
  let step := s.settings.rootStep / s.viewport.scale
  let curves := s.rows.values.filter Row.isCurve
  { s with
    intercepts := curves.flatMap (interceptsOf min max step)
    intersections := (pairs curves).flatMap fun (a, b) =>
      Landmark.intersections min max step a.valueAt b.valueAt }

/-- Brings every equation up to date, and the landmarks. -/
def refreshAll (s : Scene) : Scene :=
  (s.rows.keys.foldl refreshEquation s).refreshDerived

end CurvePlot.Scene
