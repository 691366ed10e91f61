/-!
# Doubles as dyadic numbers

A finite double is `± m · 2 ^ e` for a natural number `m`. `decode` reads that
form off its bits, and `nearest` goes back: it rounds any number of the form
once, to the nearest double, a tie going to the even neighbour.

Doubles of one sign are ordered as their bits are, and a double's bits step by
one from each value to the next. So the bits of `kept · 2 ^ last` are
`(last + 1074) · 2 ^ 52 + kept`, subnormal or not, and also when rounding up
carried into the next power of two.
-/

namespace CurvePlot.Double

/-- Beyond the range, on the positive side. -/
def infinity : Float := 1.0 / 0.0

/-- Not a number. -/
def undefined : Float := 0.0 / 0.0

/-- The number `± mantissa · 2 ^ exponent`. -/
structure Dyadic where
  /-- Whether the sign is a minus; zero has a sign too. -/
  negative : Bool
  /-- The magnitude in units of `2 ^ exponent`. -/
  mantissa : Nat
  /-- The power of two that the mantissa counts. -/
  exponent : Int
deriving Repr, DecidableEq

/-- Whether the sign bit is set. -/
def isNegative (v : Float) : Bool := v.toBits >>> 63 == 1

/-- The dyadic form of a finite double. -/
def decode (v : Float) : Dyadic :=
  let bits := v.toBits
  let field := (bits >>> 52) &&& 0x7FF
  let fraction := bits &&& 0xFFFFFFFFFFFFF
  if field == 0 then ⟨isNegative v, fraction.toNat, -1074⟩
  else ⟨isNegative v, (fraction ||| 0x10000000000000).toNat, field.toNat - 1075⟩

/-- `m / 2 ^ s`, rounded to the nearest whole number, a tie to the even one. -/
def halfEven (m s : Nat) : Nat :=
  let q := m >>> s
  let twice := 2 * (m - q <<< s)
  let unit := 1 <<< s
  if unit < twice || (unit == twice && q % 2 == 1) then q + 1 else q

/-- Zero with a sign. -/
def signedZero (negative : Bool) : Float := if negative then -0.0 else 0.0

/-- Puts a sign before the magnitude that the bits stand for. -/
def ofMagnitude (negative : Bool) (bits : Nat) : Float :=
  Float.ofBits (UInt64.ofNat (if negative then bits + 0x8000000000000000 else bits))

/-- The double nearest to `± mantissa · 2 ^ exponent`, infinite beyond the range. -/
def nearest (d : Dyadic) : Float :=
  if d.mantissa = 0 then signedZero d.negative
  else
    -- the weight of the last bit that a double of this size keeps
    let last := max (d.exponent + d.mantissa.log2 - 52) (-1074)
    let kept :=
      if last ≤ d.exponent then d.mantissa <<< (d.exponent - last).toNat
      else halfEven d.mantissa (last - d.exponent).toNat
    let bits := ((last + 1074).toNat <<< 52) + kept
    ofMagnitude d.negative (min bits 0x7FF0000000000000)

end CurvePlot.Double
