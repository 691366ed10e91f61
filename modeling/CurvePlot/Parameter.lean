import CurvePlot.Decimal.Notation
import CurvePlot.Elementary
import CurvePlot.Keyed
/-!
# Parameters

A parameter is a constant of an equation that a slider controls: a letter with a
value and the range of its slider. The parameters of one equation form a table
by letter.

* `Parameter.letters` finds the parameters of a text: the lower-case letters
  that are not coordinates, not `e`, and not part of a reserved name.
* `Parameter.Table.inherit` carries the sliders of an old table over to a new
  one.
-/

namespace CurvePlot

/-- The value of a parameter and the range of its slider. -/
structure Parameter where
  /-- Where the slider stands. -/
  value : Float := 1.0
  min : Float := -10.0
  max : Float := 10.0
deriving Repr, DecidableEq

namespace Parameter

/-- A parameter as it is when its letter first occurs. -/
def standard : Parameter := {}

/-- The parameter with another slider range, which has to have its lower end
below its upper end. -/
def setRange? (p : Parameter) (min max : Float) : Option Parameter :=
  if min < max then some { p with min := min, max := max } else none

/-- Takes over value and range of another parameter, a range only if it is one. -/
def inherit (p old : Parameter) : Parameter :=
  let moved : Parameter := { p with value := old.value }
  (moved.setRange? old.min old.max).getD moved

/-- A parameter spelled out with its letter. -/
def inspected (name : Char) (p : Parameter) : String :=
  "Parameter \x7b name: '" ++ String.singleton name ++ "', value: " ++ Decimal.inspected p.value
    ++ ", range: ParameterRange \x7b min: " ++ Decimal.inspected p.min
    ++ ", max: " ++ Decimal.inspected p.max ++ " \x7d \x7d"

/-- Whether a letter can name a parameter. -/
def isName (c : Char) : Bool :=
  c.isLower && c != 'x' && c != 'y' && c != 'e'

/-- **The parameter letters of a text,** in order of occurrence. A reserved name
is passed over as a whole wherever it stands, also inside a longer word. -/
def letters : List Char → List Char
  | [] => []
  | c :: rest =>
    match Elementary.reservedNames.find? (·.isPrefixOf (c :: rest)) with
    | some name => letters (rest.drop (name.length - 1))
    | none => if isName c then c :: letters rest else letters rest
termination_by text => text.length
decreasing_by all_goals simp only [List.length_cons, List.length_drop]; omega

/-- The parameters of one equation. -/
abbrev Table := Keyed Char Parameter

namespace Table

def empty : Table := Keyed.empty

/-- Adds the letters that are new, with the standard slider. -/
def register (t : Table) (names : List Char) : Table :=
  names.foldl (fun t c => t.insertIfNew c standard) t

/-- Moves a slider; none if the table has no such parameter. -/
def set? (t : Table) (name : Char) (value : Float) : Option Table :=
  if t.contains name then some (t.modify name fun p => { p with value := value }) else none

/-- The value at a letter, the standard one where the table has none. -/
def value (t : Table) (name : Char) : Float := ((t.get? name).getD standard).value

/-- Every parameter whose letter the old table has takes over its slider. -/
def inherit (t old : Table) : Table :=
  t.mapValues fun c p => ((old.get? c).map p.inherit).getD p

end Table

end Parameter

end CurvePlot
