import CurvePlot.Decimal.Digits
import CurvePlot.Double.Whole
/-!
# Decimal texts of doubles

* `plain` is the text shown for a number in expressions and messages: the
  shortest digits, never an exponent.
* `withPoint` always has a point, as data files want it.
* `inspected` is `withPoint` for numbers of moderate size, and has an exponent
  beyond.
* `rounded` is scientific, with a fixed number of significant digits.
-/

namespace CurvePlot.Decimal

/-- The digits with their point in place, and no exponent. -/
def Numeral.positional (n : Numeral) : List Char :=
  if 0 ≤ n.exponent then n.digits ++ List.replicate n.exponent.toNat '0'
  else
    let places := (-n.exponent).toNat
    let count := n.digits.length
    if places < count then n.digits.take (count - places) ++ '.' :: n.digits.drop (count - places)
    else '0' :: '.' :: (List.replicate (places - count) '0' ++ n.digits)

/-- One digit, the others behind a point, and the exponent. -/
def Numeral.scientific (n : Numeral) : List Char :=
  let fraction := n.digits.drop 1
  n.digits.take 1 ++ (if fraction.isEmpty then [] else '.' :: fraction)
    ++ 'e' :: (toString n.leading).toList

/-- The text of a double, given the texts of the undefined and the infinite and
how the digits of a positive number are written. -/
def write (v : Float) (undefined infinite zero : String) (digits : Double.Dyadic → List Char) :
    String :=
  if v.isNaN then undefined
  else
    let sign := if Double.isNegative v then "-" else ""
    if v.isInf then sign ++ infinite
    else if v == 0.0 then sign ++ zero
    else sign ++ String.ofList (digits (Double.decode v))

/-- The shortest digits of a positive dyadic number that is a double. -/
def shortest (d : Double.Dyadic) : Numeral := (Span.ofDyadic d.mantissa d.exponent).shortest

/-- The shown text of a number. -/
def plain (v : Float) : String := write v "NaN" "inf" "0" fun d => (shortest d).positional

/-- The shown text, with a point and a zero behind whole numbers. -/
def withPoint (v : Float) : String :=
  if v.isFinite && v == Double.truncate v then plain v ++ ".0" else plain v

/-- The text for inspection: with a point from `1e-4` up to `1e16`, and with an
exponent outside that range. -/
def inspected (v : Float) : String :=
  if v.abs < 1e16 && (v == 0.0 || 1e-4 ≤ v.abs) then withPoint v
  else write v "NaN" "inf" "0" fun d => (shortest d).scientific

/-- The text with `count` significant digits and an exponent, without zeros at
the end of the digits. -/
def rounded (count : Nat) (v : Float) : String :=
  write v "nan" "inf" "0" fun d =>
    let num := d.mantissa * Nat.pow 2 d.exponent.toNat
    let den := Nat.pow 2 (-d.exponent).toNat
    (significant count num den).trimmed.scientific

end CurvePlot.Decimal
