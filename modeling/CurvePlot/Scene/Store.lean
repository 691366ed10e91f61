import CurvePlot.FileSystem
import CurvePlot.Scene.Edit
import CurvePlot.Sheet
/-!
# Keeping scenes in files

A scene is kept as the sheet of its equations. Loading a sheet replaces all
equations; colors, sliders and numbers are given anew.
-/

namespace CurvePlot.Scene

/-- The sheet of the equations. -/
def sheet (s : Scene) : String := Sheet.write s.texts

/-- **Replaces the equations by those of a sheet.** The answer says how many there
are. -/
def loadSheet (s : Scene) (sheet : String) : Scene × Nat :=
  let texts := Sheet.read sheet
  (texts.foldl add s.clear, texts.length)

variable {m : Type → Type} [Monad m]

/-- Writes the sheet of the equations to a file. -/
def save (s : Scene) (fs : FileSystem m) (path : String) : m (Except SceneError Unit) := do
  if ← fs.write path s.sheet then return .ok () else return .error .file

/-- Replaces the equations by those of a sheet in a file. -/
def load (s : Scene) (fs : FileSystem m) (path : String) :
    m (Except SceneError (Scene × Nat)) := do
  match ← fs.read path with
  | some sheet => return .ok (s.loadSheet sheet)
  | none => return .error .file

end CurvePlot.Scene
