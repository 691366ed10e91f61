import CurvePlot.Command.Arguments
import CurvePlot.Contour.Room
import CurvePlot.Scene.Poll
import CurvePlot.Scene.Store
import CurvePlot.Scene.View
import CurvePlot.Settings.File
import CurvePlot.Snapshot.Record
/-!
# One run of the program

A run reads the settings and the equations, waits for all contours, and writes a
snapshot. What it shows depends on nothing but its arguments and those two texts
(`Arguments.snapshot`); all that it does with files goes through a file system.

A pass that fails for want of room takes the run with it: at once if it is a coarse one
(`Arguments.coarseFails`), and in the background if it is a fine one
(`fineFails`).
-/

namespace CurvePlot.Command

/-- The scene with a slider set in each equation that has it. -/
def applySlider (s : Scene) (arg : SliderArg) : Scene :=
  s.rows.keys.foldl (fun s id => (s.setParameter id arg.name arg.value 0).toOption.getD s) s

/-- The scene with all sliders set, and refreshed where they were. -/
def applySliders (s : Scene) (sliders : List SliderArg) : Scene :=
  if sliders.isEmpty then s
  else ((sliders.foldl applySlider s).poll s.settings.parameterDelay).1

namespace Arguments

/-- The camera that is asked for. -/
def camera (a : Arguments) (settings : Settings Float) : Camera Float :=
  .lookingAt a.centerX.value a.centerY.value (a.scale.getD settings.defaultScale)

/-- Which of the numbers that are asked for have a minus sign. Of several values for
the sliders of a letter the last counts. -/
def minusSigns (a : Arguments) : MinusSigns where
  centerX := a.centerX.negative
  centerY := a.centerY.negative
  width := a.width.negative
  height := a.height.negative
  slider name := (a.sliders.reverse.find? fun arg => arg.name = name).any (·.negative)

/-- **What a run shows:** the equations of a sheet under the view that is asked for,
with its sliders and with all contours traced. -/
def snapshot (a : Arguments) (settings : Settings Float) (sheet : String) : Snapshot :=
  let s := ((Scene.new settings a.width.value a.height.value).loadSheet sheet).1
  let s := applySliders (s.setView (a.camera settings)) a.sliders
  s.waitForContours.1.snapshot.2

/-- The scene of a run when its fine passes are begun. -/
def begun (a : Arguments) (settings : Settings Float) (sheet : String) : Scene :=
  let s := ((Scene.new settings a.width.value a.height.value).loadSheet sheet).1
  applySliders (s.setView (a.camera settings)) a.sliders

/-- What a run shows is this scene with the results of the passes. -/
theorem snapshot_eq (a : Arguments) (settings : Settings Float) (sheet : String) :
    a.snapshot settings sheet = (a.begun settings sheet).waitForContours.1.snapshot.2 :=
  rfl

/-- Whether a coarse pass fails: there is an implicit curve, and no room for its
lattice under the first view or the one that is asked for. -/
def coarseFails (a : Arguments) (settings : Settings Float) (sheet : String) : Bool :=
  let first := (Scene.new settings a.width.value a.height.value).viewport
  [first, first.look (a.camera settings)].any (Contour.coarseFails · settings)
    && (Sheet.read sheet).any fun text =>
      (Equation.compile text settings.linearProbe).isImplicit

end Arguments

/-- Whether one of the fine passes of a scene fails. -/
def fineFails (s : Scene) : Bool :=
  s.jobs.running.any fun job =>
    Contour.fineFails job.equation.field job.viewport job.settings job.cancelled

/-- How a run ends. -/
inductive Ending where
  /-- The arguments make no sense, or ask for help or the version. -/
  | refused
  /-- A file could not be read or written, or has no meaning. -/
  | failed
  /-- A coarse pass failed. -/
  | crashed
  /-- A fine pass failed in the background. -/
  | aborted
  /-- The snapshot is written to a file. -/
  | written
  /-- The snapshot is to be printed. -/
  | shown (text : String)
deriving Repr, DecidableEq

namespace Ending

/-- The number that the program ends with. -/
def exitCode : Ending → Nat
  | failed => 1
  | crashed => 101
  | aborted => 134
  | _ => 0

/-- The text that is printed. -/
def printed : Ending → String
  | shown text => text ++ "\n"
  | _ => ""

end Ending

variable {m : Type → Type} [Monad m]

/-- Begins the log, if one is asked for. -/
def beginLog (fs : FileSystem m) : Option String → m Bool
  | none => return true
  | some folder => do
    if ← fs.makeFolder folder then fs.write (folder ++ "/output.json") "" else return false

/-- The settings of a run: the standard ones, or those of a file. -/
def readSettings? (fs : FileSystem m) : Option String → m (Option (Settings Float))
  | none => return some .standard
  | some path => return (← fs.read path).bind Settings.ofFile?

/-- Delivers the text of a snapshot: to a file, or else to be printed. -/
def deliver (fs : FileSystem m) (text : String) : Option String → m Ending
  | none => return .shown text
  | some path => do
    if ← fs.write path text then return .written else return .failed

/-- **Runs the program** with its arguments. -/
def run (fs : FileSystem m) (args : List String) : m Ending := do
  let some a := Arguments.read? args | return .refused
  unless ← beginLog fs a.logFolder do return .failed
  let some settings ← readSettings? fs a.config | return .failed
  let some sheet ← fs.read a.file | return .failed
  if a.coarseFails settings sheet then return .crashed
  let s := a.begun settings sheet
  if fineFails s then return .aborted
  let shown := s.waitForContours.1.snapshot.2
  deliver fs (Document.snapshot a.minusSigns shown).text a.output

end CurvePlot.Command
