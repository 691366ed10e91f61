import CurvePlot.Decimal.Notation
/-!
# Why a scene refuses

The causes for which an operation on a scene fails. A scene that refuses an
operation stays as it was.
-/

namespace CurvePlot

/-- A cause for which an operation on a scene fails. -/
inductive SceneError where
  /-- A file could not be read or written. -/
  | file
  | unknownEquation (id : Nat)
  /-- The equation of that number has no parameter of that letter. -/
  | unknownParameter (id : Nat) (name : Char)
  /-- The lower end of a slider has to be below the upper one. -/
  | invalidRange (min max : Float)
deriving Repr, DecidableEq

/-- The number of an equation as it is shown. -/
def shownId (id : Nat) : String := "#" ++ toString id

namespace SceneError

/-- The message that tells the cause. -/
def message : SceneError → String
  | file => "an IO error has occurred"
  | unknownEquation id => "no equation with id " ++ shownId id
  | unknownParameter id name =>
    "equation " ++ shownId id ++ " has no parameter '" ++ String.singleton name ++ "'"
  | invalidRange min max =>
    "invalid parameter range [" ++ Decimal.plain min ++ ", " ++ Decimal.plain max
      ++ "], min must be below max"

/-- Whether there is a further cause behind it, outside the scene. -/
def hasSource : SceneError → Bool
  | file => true
  | _ => false

end SceneError

end CurvePlot
