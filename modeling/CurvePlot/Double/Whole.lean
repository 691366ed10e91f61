import CurvePlot.Double.Dyadic
/-!
# Rounding to whole numbers

All four ways rest on `truncate`, which clears the bits behind the binary point.
Each keeps the sign of zero, and leaves infinities and the undefined as they are.
-/

namespace CurvePlot.Double

/-- Rounds toward zero. -/
def truncate (v : Float) : Float :=
  let bits := v.toBits
  let field := (bits >>> 52) &&& 0x7FF
  if field < 1023 then Float.ofBits (bits &&& 0x8000000000000000)
  else if field < 1075 then Float.ofBits ((bits >>> (1075 - field)) <<< (1075 - field))
  else v

/-- The greatest whole number that is not above. -/
def floor (v : Float) : Float :=
  let t := truncate v
  if v < t then t - 1.0 else t

/-- The least whole number that is not below. -/
def ceil (v : Float) : Float :=
  let t := truncate v
  if t < v then t + 1.0 else t

/-- The nearest whole number, half-way values going away from zero. -/
def round (v : Float) : Float :=
  let t := truncate v
  if 0.5 ≤ (v - t).abs then (if v < 0.0 then t - 1.0 else t + 1.0) else t

/-- The whole part of a number as a count: nothing below one, and at most
`2 ^ 64 - 1`. The undefined counts as nothing. -/
def toNat (v : Float) : Nat := v.toUInt64.toNat

/-- The whole part of a number, of either sign. -/
def toInt (v : Float) : Int := if v < 0.0 then -(toNat (-v) : Int) else toNat v

end CurvePlot.Double
