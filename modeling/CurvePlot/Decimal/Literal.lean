import CurvePlot.Double.Dyadic
/-!
# Reading decimal literals

A literal is read as the double nearest to its exact value. Two grammars of
literals occur: bare digits with at most one point, as in expressions, and the
full form with sign, exponent and the names of the infinite and the undefined.
-/

namespace CurvePlot.Decimal

/-- The number that a run of digits counts. -/
def ofDigits (digits : List Char) : Nat :=
  digits.foldl (fun n c => 10 * n + (c.toNat - '0'.toNat)) 0

/-- The double nearest to `whole.fraction · 10 ^ exponent`. -/
def nearest (whole fraction : List Char) (exponent : Int) : Float :=
  let e := exponent - fraction.length
  Float.ofScientific (ofDigits (whole ++ fraction)) (e < 0) e.natAbs

/-- A text cut at its first character `c`, which neither part holds; none if it
has no such character. -/
def splitAt? (c : Char) (text : List Char) : Option (List Char × List Char) :=
  match text.dropWhile (· != c) with
  | [] => none
  | _ :: rest => some (text.takeWhile (· != c), rest)

/-- The parts before and behind the first point, the second empty without one. -/
def splitPoint (text : List Char) : List Char × List Char :=
  (splitAt? '.' text).getD (text, [])

def allDigits (text : List Char) : Bool := text.all Char.isDigit

/-- The value of a literal of digits and at most one point, with at least one
digit. -/
def bare? (text : List Char) : Option Float :=
  let (whole, fraction) := splitPoint text
  if allDigits whole && allDigits fraction && !(whole.isEmpty && fraction.isEmpty) then
    some (nearest whole fraction 0)
  else none

/-- A sign, if the text begins with one, and the text behind it. -/
def splitSign : List Char → Bool × List Char
  | '-' :: rest => (true, rest)
  | '+' :: rest => (false, rest)
  | text => (false, text)

/-- The whole number that digits behind an optional sign stand for. -/
def whole? (text : List Char) : Option Int :=
  let (negative, digits) := splitSign text
  if digits.isEmpty || !allDigits digits then none
  else some (if negative then -(ofDigits digits : Int) else ofDigits digits)

/-- The value of an unsigned literal with an optional exponent. -/
def scaled? (text : List Char) : Option Float :=
  let mantissa := text.takeWhile fun c => c != 'e' && c != 'E'
  let (whole, fraction) := splitPoint mantissa
  if allDigits whole && allDigits fraction && !(whole.isEmpty && fraction.isEmpty) then
    match text.drop mantissa.length with
    | [] => some (nearest whole fraction 0)
    | _ :: exponent => (whole? exponent).map (nearest whole fraction)
  else none

/-- A number with the sign it was written with. An undefined number has no sign of
its own, so the value does not tell the sign of every literal. -/
structure Signed where
  value : Float
  negative : Bool
deriving Repr, DecidableEq

/-- Reads a literal in full form: an optional sign, then a literal with an optional
exponent, or a name of the infinite or the undefined in any case. -/
def signed? (text : List Char) : Option Signed :=
  let (negative, rest) := splitSign text
  let name := rest.map Char.toLower
  let magnitude :=
    if name = "inf".toList || name = "infinity".toList then some Double.infinity
    else if name = "nan".toList then some Double.undefined
    else scaled? rest
  magnitude.map fun v => ⟨if negative then -v else v, negative⟩

end CurvePlot.Decimal
