import CurvePlot.Double.Distance
import CurvePlot.Double.Fused
import CurvePlot.Double.Whole
import CurvePlot.Elementary
/-!
# The numbers a plot is computed in

The geometry of a plot is written once, over any type of scalars: programs run
it on doubles, and statements about it may read it over exact numbers as well.

* `Scalar α` lists what the geometry asks of a number type. Undefined values are
  values of the type, since a curve may be undefined anywhere.
* `instScalarFloat` is the double-precision instance.
-/

namespace CurvePlot

/-- A type of numbers, possibly undefined ones, that curves are drawn in. -/
class Scalar (α : Type) extends
    Add α, Sub α, Mul α, Div α, Neg α, LT α, LE α, BEq α, OfScientific α where
  /-- The order can be tested. -/
  decLt : DecidableLT α
  /-- The order can be tested. -/
  decLe : DecidableLE α
  /-- The value outside every domain. -/
  undefined : α
  /-- Whether the value is the undefined one. -/
  isUndefined : α → Bool
  /-- Whether the value is a number, neither undefined nor infinite. -/
  isFinite : α → Bool
  /-- A literal of an expression as a scalar. -/
  ofFloat : Float → α
  /-- A whole number as a scalar. -/
  ofInt : Int → α
  /-- `a · b + c`, rounded at most once. -/
  fma : α → α → α → α
  /-- The magnitude. -/
  abs : α → α
  /-- The greatest whole number that is not above. -/
  floor : α → α
  /-- The least whole number that is not below. -/
  ceil : α → α
  /-- The nearest whole number, half-way values going away from zero. -/
  round : α → α
  /-- The whole part as a count, nothing for what is below one. -/
  toNat : α → Nat
  /-- The whole part. -/
  toInt : α → Int
  /-- The power. -/
  pow : α → α → α
  /-- The value of an elementary function. -/
  apply : Elementary → α → α

attribute [reducible, instance] Scalar.decLt Scalar.decLe

namespace Scalar

variable {α : Type} [Scalar α]

/-- A count as a scalar. -/
@[inline] def ofNat (n : Nat) : α := ofInt n

/-- One for true and zero for false. -/
@[inline] def ofBool (b : Bool) : α := if b then 1.0 else 0.0

/-- The greater of two scalars. -/
@[inline] def max (a b : α) : α := if a < b then b else a

end Scalar

namespace Double

/-- The elementary functions on doubles. `round` sends half-way values up. -/
def apply : Elementary → Float → Float
  | .sin, v => v.sin
  | .cos, v => v.cos
  | .tan, v => v.tan
  | .asin, v => v.asin
  | .acos, v => v.acos
  | .atan, v => v.atan
  | .sinh, v => v.sinh
  | .cosh, v => v.cosh
  | .tanh, v => v.tanh
  | .sqrt, v => v.sqrt
  | .cbrt, v => v.cbrt
  | .abs, v => v.abs
  | .log, v => v.log10
  | .ln, v => v.log
  | .exp, v => v.exp
  | .floor, v => floor v
  | .ceil, v => ceil v
  | .round, v => floor (v + 0.5)
  | .sign, v => if v == 0.0 || v.isNaN then v else if v < 0.0 then -1.0 else 1.0

end Double

instance instScalarFloat : Scalar Float where
  decLt := inferInstance
  decLe := inferInstance
  undefined := Double.undefined
  isUndefined := Float.isNaN
  isFinite := Float.isFinite
  ofFloat v := v
  ofInt := Float.ofInt
  fma := Double.fma
  abs := Float.abs
  floor := Double.floor
  ceil := Double.ceil
  round := Double.round
  toNat := Double.toNat
  toInt := Double.toInt
  pow := Float.pow
  apply := Double.apply

end CurvePlot
