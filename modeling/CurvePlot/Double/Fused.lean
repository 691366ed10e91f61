import CurvePlot.Double.Dyadic
/-!
# The fused multiply-add

`fma a b c` is `a · b + c`, computed exactly and rounded once. Dyadic numbers
have exact sums and products, so the definition is the exact sum followed by
`nearest`.
-/

namespace CurvePlot.Double

/-- The dyadic number's mantissa with its sign, in units of `2 ^ e` for an `e`
not above its exponent. -/
def Dyadic.inUnits (d : Dyadic) (e : Int) : Int :=
  let m : Int := d.mantissa <<< (d.exponent - e).toNat
  if d.negative then -m else m

/-- The exact product. -/
def Dyadic.mul (a b : Dyadic) : Dyadic :=
  ⟨a.negative != b.negative, a.mantissa * b.mantissa, a.exponent + b.exponent⟩

/-- The exact sum. A sum of zero is negative only if both summands are. -/
def Dyadic.add (a b : Dyadic) : Dyadic :=
  let e := min a.exponent b.exponent
  let sum := a.inUnits e + b.inUnits e
  if sum = 0 then ⟨a.negative && b.negative, 0, e⟩
  else ⟨sum < 0, sum.natAbs, e⟩

/-- `a · b + c` with a single rounding. -/
def fma (a b c : Float) : Float :=
  if !(a.isFinite && b.isFinite) then a * b + c
  else if !c.isFinite then c
  else nearest (((decode a).mul (decode b)).add (decode c))

end CurvePlot.Double
