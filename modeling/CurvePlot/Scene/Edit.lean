import CurvePlot.Scene.Refresh
/-!
# Editing a scene

Adding, changing and removing equations, and moving their sliders. A text that is
set takes effect at once; a text that is typed waits until typing rests. A slider
acts at once on whatever is evaluated, while what is kept ready for its equation
is dropped and made anew when the slider rests.
-/

namespace CurvePlot.Scene

/-- Compiles a text with the scene's own probe. -/
def compile (s : Scene) (text : String) : Equation :=
  Equation.compile text s.settings.linearProbe

/-- Adds an equation of a color. Its number is the `nextId` of the scene before. -/
def addColored (s : Scene) (text : String) (color : Color) : Scene :=
  let id := s.nextId
  let row := Row.fresh (s.compile text) color
  ({ s with rows := s.rows.insert id row, nextId := id + 1 }.refreshEquation id).refreshDerived

/-- Adds an equation in the next color of the palette. -/
def add (s : Scene) (text : String) : Scene :=
  { s with palette := s.palette.advance }.addColored text s.palette.upcoming

/-- Removes an equation and all that was to come of it. -/
def remove (s : Scene) (id : Nat) : Except SceneError Scene :=
  match s.row id with
  | .error e => .error e
  | .ok _ =>
    .ok { s with
      rows := s.rows.erase id
      jobs := s.jobs.cancel id
      refreshes := s.refreshes.cancel id
      edits := s.edits.cancel id
      pendingText := s.pendingText.erase id }.refreshDerived

/-- **Compiles an equation anew from a text.** Parameters that are still there keep
their sliders. A blank text removes the equation. -/
def setText (s : Scene) (id : Nat) (text : String) : Except SceneError Scene :=
  if (Text.trim text.toList).isEmpty then s.remove id
  else
    match s.row id with
    | .error e => .error e
    | .ok r =>
      let compiled := s.compile text
      let equation :=
        { compiled with parameters := compiled.parameters.inherit r.equation.parameters }
      -- a text that waits for the equation is not touched and will come
      let s := { s with
        rows := s.rows.insert id (Row.fresh equation r.color)
        jobs := s.jobs.cancel id
        refreshes := s.refreshes.cancel id }
      .ok (s.refreshEquation id).refreshDerived

/-- Takes note of a text that is being typed. -/
def editText (s : Scene) (id : Nat) (text : String) (now : Nat) : Except SceneError Scene :=
  match s.row id with
  | .error e => .error e
  | .ok _ =>
    .ok { s with
      pendingText := s.pendingText.insert id text
      edits := s.edits.schedule id now }

/-- Removes every equation and all that was to come, and starts the colors over. -/
def clear (s : Scene) : Scene :=
  -- the numbers of the equations go on, so that none is given out twice
  { s with
    rows := Keyed.empty
    jobs := s.jobs.cancelAll
    refreshes := s.refreshes.clear
    edits := s.edits.clear
    pendingText := Keyed.empty
    intercepts := []
    intersections := []
    pins := []
    palette := {} }

def setColor (s : Scene) (id : Nat) (color : Color) : Except SceneError Scene :=
  match s.row id with
  | .error e => .error e
  | .ok _ => .ok (s.updateRow id fun r => { r with color := color })

def parameters (s : Scene) (id : Nat) : Except SceneError Parameter.Table :=
  match s.row id with
  | .error e => .error e
  | .ok r => .ok r.equation.parameters

/-- **Moves a slider.** What was kept ready for the equation is dropped, and its
fine pass is called off. -/
def setParameter (s : Scene) (id : Nat) (name : Char) (value : Float) (now : Nat) :
    Except SceneError Scene :=
  match s.row id with
  | .error e => .error e
  | .ok r =>
    match r.equation.parameters.set? name value with
    | none => .error (.unknownParameter id name)
    | some parameters =>
      let s := s.updateRow id fun r =>
        { r with equation := { r.equation with parameters := parameters } }.evict
      .ok { s with
        jobs := s.jobs.cancel id
        refreshes := s.refreshes.schedule id now }

def setParameterRange (s : Scene) (id : Nat) (name : Char) (min max : Float) :
    Except SceneError Scene :=
  match s.row id with
  | .error e => .error e
  | .ok r =>
    match r.equation.parameters.get? name with
    | none => .error (.unknownParameter id name)
    | some p =>
      match p.setRange? min max with
      | none => .error (.invalidRange min max)
      | some p =>
        .ok (s.updateRow id fun r =>
          { r with equation :=
            { r.equation with parameters := r.equation.parameters.insert name p } })

end CurvePlot.Scene
