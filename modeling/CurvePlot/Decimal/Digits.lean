import CurvePlot.Double.Dyadic
/-!
# Choosing the decimal digits of a double

Two ways to choose the digits of a positive number, both in exact arithmetic.

* `shortest` takes the fewest digits that read back as the same double, and of
  those the nearest to it. Grids of one, two, … digits are tried in turn; a grid
  has such a number if and only if one of the double's two neighbours on it does.
* `significant` takes a fixed number of digits, the nearest, a tie going to the
  even digit.

A positive number is given as a fraction `num / den`.
-/

namespace CurvePlot.Decimal

/-- A whole number of units of a power of ten. -/
structure Numeral where
  /-- The digits of the whole number, the first not zero. -/
  digits : List Char
  /-- The power of ten that the last digit counts. -/
  exponent : Int
deriving Repr, DecidableEq

namespace Numeral

/-- The numeral without the zeros at its end. -/
def trimmed (n : Numeral) : Numeral :=
  let zeros := (n.digits.reverse.takeWhile (· == '0')).length
  ⟨n.digits.take (n.digits.length - zeros), n.exponent + zeros⟩

/-- The power of ten that the first digit counts. -/
def leading (n : Numeral) : Int := n.exponent + n.digits.length - 1

end Numeral

/-- Whether `num / den` is below `10 ^ k`. -/
def isBelow (num den : Nat) (k : Int) : Bool :=
  if 0 ≤ k then num < den * Nat.pow 10 k.toNat else num * Nat.pow 10 (-k).toNat < den

/-- The `k` with `10 ^ k ≤ num / den < 10 ^ (k + 1)`. The binary logarithms place
it up to one. -/
def magnitude (num den : Nat) : Int :=
  let guess := ((num.log2 : Int) - den.log2) * 30103 / 100000
  if isBelow num den guess then guess - 1
  else if isBelow num den (guess + 1) then guess
  else guess + 1

/-- The factors by which numerator and denominator grow when the unit becomes
`10 ^ k`. -/
def unitFactors (k : Int) : Nat × Nat :=
  if 0 ≤ k then (1, Nat.pow 10 k.toNat) else (Nat.pow 10 (-k).toNat, 1)

/-- The nearest number with `count` digits, a tie going to the even one. -/
def significant (count : Nat) (num den : Nat) : Numeral :=
  let unit := magnitude num den + 1 - count
  let (up, down) := unitFactors unit
  let a := num * up
  let b := den * down
  let d := a / b
  let twice := 2 * (a % b)
  let d := if b < twice || (b == twice && d % 2 == 1) then d + 1 else d
  ⟨Nat.toDigits 10 d, unit⟩

/-- A magnitude with the interval that reads back as it: it may be missed by
`below` toward zero and by `above` away from zero, inclusive or not. All of them
are numerators over `den`. -/
structure Span where
  num : Nat
  den : Nat
  /-- How far below the interval reaches. -/
  below : Nat
  /-- How far above the interval reaches. -/
  above : Nat
  /-- Whether the ends of the interval belong to it. -/
  closed : Bool

/-- The interval that rounds to `m · 2 ^ e`: half a unit to either side, half of
that below a power of two, with its ends when `m` is even. -/
def Span.ofDyadic (m : Nat) (e : Int) : Span :=
  let quarter := Nat.pow 2 (e - 2).toNat
  { num := 4 * m * quarter
    den := Nat.pow 2 (2 - e).toNat
    below := if m = 0x10000000000000 ∧ -1074 < e then quarter else 2 * quarter
    above := 2 * quarter
    closed := m % 2 == 0 }

/-- The number of `count` digits nearest to the span's own that the span holds,
if it holds one. Of two as near, the upper. -/
def Span.within? (s : Span) (top : Int) (count : Nat) : Option Numeral :=
  let unit := top + 1 - count
  let (up, down) := unitFactors unit
  let a := s.num * up
  let b := s.den * down
  let d := a / b
  let missBelow := a % b
  let missAbove := b - missBelow
  let reaches (room miss : Nat) : Bool := if s.closed then miss ≤ room else miss < room
  let lower := reaches (s.below * up) missBelow
  let upper := reaches (s.above * up) missAbove
  let numeral (d : Nat) : Numeral := ⟨Nat.toDigits 10 d, unit⟩
  if lower && upper then some (numeral (if missBelow < missAbove then d else d + 1))
  else if lower then some (numeral d)
  else if upper then some (numeral (d + 1))
  else none

/-- The fewest digits inside the span. Seventeen are always enough. -/
def Span.shortest (s : Span) : Numeral :=
  let top := magnitude s.num s.den
  let found := (List.range 17).findSome? fun i => s.within? top (i + 1)
  (found.getD (significant 17 s.num s.den)).trimmed

end CurvePlot.Decimal
