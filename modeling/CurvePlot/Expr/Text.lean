import CurvePlot.Decimal.Notation
import CurvePlot.Expr
/-!
# Expressions as text

`Expr.text` writes an expression with every operation in parentheses. The two
constants with a name are written by it.
-/

namespace CurvePlot

namespace BinaryOp

/-- The sign of an operation. -/
def symbol : BinaryOp → String
  | add => "+" | sub => "-" | mul => "*" | div => "/" | pow => "^"

end BinaryOp

namespace Comparison

/-- The sign of a comparison. -/
def symbol : Comparison → String
  | less => "<" | lessEqual => "<=" | greater => ">" | greaterEqual => ">=" | equal => "=="

end Comparison

namespace Connective

/-- The sign of a combination. -/
def symbol : Connective → String
  | and => "&&" | or => "||"

end Connective

/-- The ratio of a circle's circumference to its diameter. -/
def circleConstant : Float := 3.141592653589793

/-- The base of the natural logarithm. -/
def naturalBase : Float := 2.718281828459045

namespace Expr

/-- A number as it is written in an expression. -/
def constantText (v : Float) : String :=
  if v == circleConstant then "pi"
  else if v == naturalBase then "e"
  else Decimal.plain v

/-- The text of an expression. -/
def text : Expr → String
  | constant v => constantText v
  | x => "x"
  | y => "y"
  | parameter name => String.singleton name
  | neg e => "-(" ++ e.text ++ ")"
  | binary op a b => "(" ++ a.text ++ op.symbol ++ b.text ++ ")"
  | compare op a b => "(" ++ a.text ++ op.symbol ++ b.text ++ ")"
  | logical op a b => "(" ++ a.text ++ " " ++ op.symbol ++ " " ++ b.text ++ ")"
  | call f e => f.name ++ "(" ++ e.text ++ ")"

end Expr

end CurvePlot
