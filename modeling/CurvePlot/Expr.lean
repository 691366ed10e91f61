import CurvePlot.Elementary
/-!
# Expressions

The trees that equation texts are read as. An expression is made of numbers, the
coordinates, parameters, arithmetic, comparisons and their combination, and
calls of elementary functions. A parameter stands for its letter; its value is
found when the tree is evaluated.
-/

namespace CurvePlot

/-- The arithmetic operations. -/
inductive BinaryOp where
  | add | sub | mul | div | pow
deriving Repr, DecidableEq, Inhabited

/-- The comparisons. Two numbers count as equal if they nearly are. -/
inductive Comparison where
  | less | lessEqual | greater | greaterEqual | equal
deriving Repr, DecidableEq, Inhabited

/-- The ways to combine two conditions. -/
inductive Connective where
  | and | or
deriving Repr, DecidableEq, Inhabited

/-- An expression in the coordinates and the parameters. -/
inductive Expr where
  | constant (value : Float)
  | x
  | y
  | parameter (name : Char)
  | neg (e : Expr)
  | binary (op : BinaryOp) (lhs rhs : Expr)
  | compare (op : Comparison) (lhs rhs : Expr)
  | logical (op : Connective) (lhs rhs : Expr)
  | call (f : Elementary) (arg : Expr)
deriving Repr, DecidableEq, Inhabited

namespace Expr

/-- The product of two expressions. -/
abbrev mul (a b : Expr) : Expr := .binary .mul a b

/-- Whether the second coordinate occurs anywhere. -/
def dependsOnY : Expr → Bool
  | .y => true
  | .constant _ | .x | .parameter _ => false
  | .neg e | .call _ e => e.dependsOnY
  | .binary _ a b | .compare _ a b | .logical _ a b => a.dependsOnY || b.dependsOnY

/-- The letters of the parameters that occur in an expression. -/
def parameters : Expr → List Char
  | .parameter name => [name]
  | .constant _ | .x | .y => []
  | .neg e | .call _ e => e.parameters
  | .binary _ a b | .compare _ a b | .logical _ a b => a.parameters ++ b.parameters

end Expr

end CurvePlot
