import CurvePlot.Decimal.Literal
import CurvePlot.Text.Blank
/-!
# Slider arguments

An argument such as `a=2` sets the slider of a letter in every equation that has
one. Blanks may stand around the letter and the number.
-/

namespace CurvePlot.Command

/-- A slider value from the command line. -/
structure SliderArg where
  /-- The letter of the slider. -/
  name : Char
  /-- The value it is set to. -/
  value : Float
  /-- Whether the value was written with a minus sign. -/
  negative : Bool
deriving Repr, DecidableEq

/-- Why an argument is no slider argument. -/
inductive SliderArgError where
  /-- There is no equality sign. -/
  | noSign (text : String)
  /-- What stands before the sign is no lower-case letter. -/
  | badName (name : String)
  /-- Nothing stands behind the sign. -/
  | noValue
  /-- What stands behind the sign is no number. -/
  | badValue
deriving Repr, DecidableEq

/-- The message that tells the cause. -/
def SliderArgError.message : SliderArgError → String
  | .noSign text => "expected `name=value`, found `" ++ text ++ "`"
  | .badName name => "`" ++ name ++ "` is not a single-letter parameter"
  | .noValue => "cannot parse float from empty string"
  | .badValue => "invalid float literal"

/-- Reads a slider argument. -/
def SliderArg.read (text : String) : Except SliderArgError SliderArg :=
  match Decimal.splitAt? '=' text.toList with
  | none => .error (.noSign text)
  | some (name, value) =>
    match Text.trim name with
    | [c] =>
      if c.isLower then
        let digits := Text.trim value
        match Decimal.signed? digits with
        | some v => .ok ⟨c, v.value, v.negative⟩
        | none => .error (if digits.isEmpty then .noValue else .badValue)
      else .error (.badName (String.ofList name))
    | _ => .error (.badName (String.ofList name))

end CurvePlot.Command
