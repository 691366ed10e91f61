import CurvePlot.Expr
import CurvePlot.Scalar
/-!
# Values of expressions

`Expr.eval` gives an expression's value at a point, for given values of the
parameters. Nothing fails: what has no value is undefined or infinite. Conditions
have the value one or zero, and a number counts as a true condition if it is
positive.
-/

namespace CurvePlot

variable {α : Type} [Scalar α]

/-- The value of an arithmetic operation. -/
@[specialize]
def BinaryOp.apply (op : BinaryOp) (a b : α) : α :=
  match op with
  | .add => a + b
  | .sub => a - b
  | .mul => a * b
  | .div => a / b
  | .pow => Scalar.pow a b

/-- Whether a comparison holds. Equality is up to a billionth. -/
@[specialize]
def Comparison.holds (op : Comparison) (a b : α) : Bool :=
  match op with
  | .less => a < b
  | .lessEqual => a ≤ b
  | .greater => b < a
  | .greaterEqual => b ≤ a
  | .equal => Scalar.abs (a - b) < (1e-9 : α)

/-- Whether a combination of two conditions holds. -/
def Connective.holds (op : Connective) (a b : Bool) : Bool :=
  match op with
  | .and => a && b
  | .or => a || b

/-- **The value of an expression** at the point `(x, y)`, with the parameters'
values given by `env`. -/
@[specialize]
def Expr.eval (env : Char → α) (x y : α) : Expr → α
  | .constant v => Scalar.ofFloat v
  | .x => x
  | .y => y
  | .parameter name => env name
  | .neg e => -(e.eval env x y)
  | .binary op a b => op.apply (a.eval env x y) (b.eval env x y)
  | .compare op a b => Scalar.ofBool (op.holds (a.eval env x y) (b.eval env x y))
  | .logical op a b =>
    Scalar.ofBool (op.holds ((0.0 : α) < a.eval env x y) ((0.0 : α) < b.eval env x y))
  | .call f e => Scalar.apply f (e.eval env x y)

end CurvePlot
