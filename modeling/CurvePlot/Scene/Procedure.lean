import CurvePlot.Scene.Store
/-!
# Editing a scene in place

The operations that may be refused, for a scene that is kept in one place and changed
there. A `Procedure` writes one part of the scene after the other, and asks in between
whether it may go on. If it stops, what it has written by then stays written: nothing takes
it back.
-/

namespace CurvePlot

/-- The row with the slider of a letter changed, if it has that letter. -/
def Row.modifySlider (name : Char) (f : Parameter → Parameter) (r : Row) : Row :=
  { r with equation := { r.equation with parameters := r.equation.parameters.modify name f } }

namespace Scene

/-- A row of steps on the scene at hand, which may stop for a cause. -/
abbrev Procedure (α : Type) := ExceptT SceneError (StateM Scene) α

namespace Procedure

/-- The outcome on a scene, and the scene as it is left. -/
def run {α : Type} (p : Procedure α) (s : Scene) : Except SceneError α × Scene := ExceptT.run p s

/-- One step that changes the scene. -/
def change (f : Scene → Scene) : Procedure Unit := modify f

/-- The row of that number, if there is one. -/
def entry (id : Nat) : Procedure Row := do
  match (← get).rows.get? id with
  | some r => return r
  | none => throw (.unknownEquation id)

/-- The slider of a letter of that row, if there is one. -/
def slider (id : Nat) (r : Row) (name : Char) : Procedure Parameter :=
  match r.equation.parameters.get? name with
  | some p => return p
  | none => throw (.unknownParameter id name)

/-- Writes the slider of a letter where it is. -/
def writeSlider (id : Nat) (name : Char) (f : Parameter → Parameter) : Procedure Unit :=
  change fun s => s.updateRow id (Row.modifySlider name f)

def cancelPass (id : Nat) : Procedure Unit := change fun s => { s with jobs := s.jobs.cancel id }

def cancelRefresh (id : Nat) : Procedure Unit :=
  change fun s => { s with refreshes := s.refreshes.cancel id }

def remove (id : Nat) : Procedure Unit := do
  -- the row is taken out at once, and only then asked for
  let row := (← get).rows.get? id
  change fun s => { s with rows := s.rows.erase id }
  if row.isNone then throw (.unknownEquation id)
  cancelPass id
  cancelRefresh id
  change fun s => { s with edits := s.edits.cancel id }
  change fun s => { s with pendingText := s.pendingText.erase id }
  change refreshDerived

/-- A blank text removes the equation. -/
def setText (id : Nat) (text : String) : Procedure Unit := do
  if (Text.trim text.toList).isEmpty then
    remove id
  else
    let compiled := (← get).compile text
    let r ← entry id
    let equation :=
      { compiled with parameters := compiled.parameters.inherit r.equation.parameters }
    change fun s => s.updateRow id fun r => { r with equation := equation }
    change fun s => s.updateRow id Row.evict
    cancelPass id
    cancelRefresh id
    change fun s => s.refreshEquation id
    change refreshDerived

def editText (id : Nat) (text : String) (now : Nat) : Procedure Unit := do
  let _ ← entry id
  change fun s => { s with pendingText := s.pendingText.insert id text }
  change fun s => { s with edits := s.edits.schedule id now }

def setColor (id : Nat) (color : Color) : Procedure Unit := do
  let _ ← entry id
  change fun s => s.updateRow id fun r => { r with color := color }

def parameters (id : Nat) : Procedure Parameter.Table := do
  let r ← entry id
  return r.equation.parameters

def setParameter (id : Nat) (name : Char) (value : Float) (now : Nat) : Procedure Unit := do
  let r ← entry id
  let _ ← slider id r name
  writeSlider id name fun p => { p with value := value }
  change fun s => s.updateRow id Row.evict
  cancelPass id
  change fun s => { s with refreshes := s.refreshes.schedule id now }

def setParameterRange (id : Nat) (name : Char) (min max : Float) : Procedure Unit := do
  let r ← entry id
  let _ ← slider id r name
  if min < max then
    -- the ends are written one by one
    writeSlider id name fun p => { p with min := min }
    writeSlider id name fun p => { p with max := max }
  else throw (.invalidRange min max)

/-- Loads a file, given what reading it gave. -/
def load (content : Option String) : Procedure Nat := do
  match content with
  | none => throw .file
  | some sheet =>
    change clear
    let texts := Sheet.read sheet
    texts.forM fun text => change fun s => s.add text
    return texts.length

end Procedure

end Scene

end CurvePlot
