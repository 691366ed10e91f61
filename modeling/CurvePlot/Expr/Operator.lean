import CurvePlot.Expr.Text
/-!
# Operators by their signs

Every operation of an expression that joins two others, found by the sign it is
written with.
-/

namespace CurvePlot

/-- An operation that joins two expressions. -/
inductive Operator where
  | binary (op : BinaryOp)
  | compare (op : Comparison)
  | logical (op : Connective)
deriving Repr, DecidableEq

namespace Operator

/-- Every operator. -/
def all : List Operator :=
  [.add, .sub, .mul, .div, .pow].map binary
    ++ [.less, .lessEqual, .greater, .greaterEqual, .equal].map compare
    ++ [.and, .or].map logical

/-- The sign of an operator. -/
def symbol : Operator → String
  | binary op => op.symbol
  | compare op => op.symbol
  | logical op => op.symbol

/-- The operator of a sign. -/
def ofSymbol? (sign : String) : Option Operator := all.find? (·.symbol = sign)

end Operator

end CurvePlot
