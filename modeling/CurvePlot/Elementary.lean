/-!
# Elementary functions

The functions that an expression may call by name, with every spelling of each.
-/

namespace CurvePlot

/-- A function of one number that expressions may call. -/
inductive Elementary where
  | sin | cos | tan
  | asin | acos | atan
  | sinh | cosh | tanh
  | sqrt | cbrt | abs
  /-- The logarithm to base ten. -/
  | log
  /-- The natural logarithm. -/
  | ln
  | exp
  | floor | ceil
  /-- The nearest whole number, half-way values going up. -/
  | round
  /-- The sign; zero and the undefined are their own sign. -/
  | sign
deriving Repr, DecidableEq, Inhabited

namespace Elementary

/-- The name a function is written back under. -/
def name : Elementary → String
  | sin => "sin" | cos => "cos" | tan => "tan"
  | asin => "asin" | acos => "acos" | atan => "atan"
  | sinh => "sinh" | cosh => "cosh" | tanh => "tanh"
  | sqrt => "sqrt" | cbrt => "cbrt" | abs => "abs"
  | log => "log" | ln => "ln" | exp => "exp"
  | floor => "floor" | ceil => "ceil" | round => "round"
  | sign => "sign"

/-- Every name that a call may use, with the function it means. -/
def names : List (String × Elementary) :=
  [("sin", sin), ("cos", cos), ("tan", tan),
   ("asin", asin), ("arcsin", asin), ("acos", acos), ("arccos", acos),
   ("atan", atan), ("arctan", atan),
   ("sinh", sinh), ("cosh", cosh), ("tanh", tanh),
   ("sqrt", sqrt), ("cbrt", cbrt), ("abs", abs),
   ("log", log), ("ln", ln), ("exp", exp),
   ("floor", floor), ("ceil", ceil), ("round", round),
   ("sign", sign), ("signum", sign)]

/-- The function of that name. -/
def ofName? (name : String) : Option Elementary := names.lookup name

/-- Every function can be called by the name it is written back under. -/
theorem ofName?_name (f : Elementary) : ofName? f.name = some f := by
  cases f <;> decide

/-- The names that hold letters which are not parameters, in the order in which
they are looked for: a name never comes behind another that begins it. -/
def reservedNames : List (List Char) :=
  ["arcsin", "arccos", "arctan", "asin", "acos", "atan", "sinh", "cosh", "tanh", "sin",
   "cos", "tan", "sqrt", "cbrt", "abs", "log", "ln", "exp", "floor", "ceil", "round",
   "signum", "sign", "pi"].map String.toList

end Elementary

end CurvePlot
