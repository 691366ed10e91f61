import CurvePlot.Decimal.Literal
import CurvePlot.Settings
/-!
# Numbers in settings files

Whole numbers to the bases ten, sixteen, eight and two, and decimals with a
fraction, an exponent or both. An underscore may stand between two digits.
-/

namespace CurvePlot.Settings.File

/-- Digits without the underscores that stand between two of them, none if an
underscore stands elsewhere. -/
def ungrouped? (isDigit : Char → Bool) : List Char → Option (List Char)
  | [] => none
  | [c] => if isDigit c then some [c] else none
  | c :: '_' :: rest => if isDigit c then (ungrouped? isDigit rest).map (c :: ·) else none
  | c :: rest => if isDigit c then (ungrouped? isDigit rest).map (c :: ·) else none

/-- Decimal digits that begin with zero only if they are zero alone. -/
def plainDigits? (text : List Char) : Option (List Char) :=
  (ungrouped? Char.isDigit text).filter fun digits => digits.head? != some '0' || digits.length == 1

/-- A whole number. One that takes more than 64 bits, with a sign or without, is
no number to any setting, and one of more than 128 bits has no place in a file. -/
def whole? (n : Int) : Option Value :=
  if -0x8000000000000000 ≤ n ∧ n < 0x10000000000000000 then some (.whole n)
  else if -0x80000000000000000000000000000000 ≤ n ∧ n < 0x100000000000000000000000000000000 then
    some .other
  else none

/-- The value of a digit up to fifteen. -/
def digitValue (c : Char) : Nat :=
  if c.isDigit then c.toNat - '0'.toNat else c.toLower.toNat - 'a'.toNat + 10

/-- Whether a character is a digit to a base of at most sixteen. -/
def isDigitOf (base : Nat) (c : Char) : Bool :=
  (c.isDigit || c.isAlpha) && digitValue c < base

/-- The number that digits to a base count. -/
def ofDigits (base : Nat) (digits : List Char) : Nat :=
  digits.foldl (fun n c => base * n + digitValue c) 0

/-- A whole number with digits to another base than ten. -/
def based? (base : Nat) (text : List Char) : Option Value :=
  (ungrouped? (isDigitOf base) text).bind fun digits => whole? (ofDigits base digits)

/-- The exponent of a number: a sign, if there is one, and digits. -/
def exponent? (text : List Char) : Option Int :=
  let (negative, digits) := Decimal.splitSign text
  (ungrouped? Char.isDigit digits).map fun digits =>
    if negative then -(Decimal.ofDigits digits : Int) else Decimal.ofDigits digits

/-- A number with a fraction, an exponent or both, unless it is too large. -/
def decimal? (text : List Char) : Option Float := do
  let mantissa := text.takeWhile fun c => c != 'e' && c != 'E'
  let exponent ← match text.drop mantissa.length with
    | [] => some 0
    | _ :: rest => exponent? rest
  let (whole, fraction) ← match Decimal.splitAt? '.' mantissa with
    | some (whole, fraction) => do
      some (← plainDigits? whole, ← ungrouped? Char.isDigit fraction)
    | none => do some (← plainDigits? mantissa, [])
  (some (Decimal.nearest whole fraction exponent)).filter fun v => v.isFinite

/-- The value that the name of the infinite or the undefined stands for. -/
def named? (text : List Char) : Option Float :=
  if text = "inf".toList then some Double.infinity
  else if text = "nan".toList then some Double.undefined
  else none

/-- The value of a number. A sign does not go with a base. -/
def number? (text : List Char) : Option Value :=
  match text with
  | '0' :: 'x' :: digits => based? 16 digits
  | '0' :: 'o' :: digits => based? 8 digits
  | '0' :: 'b' :: digits => based? 2 digits
  | _ =>
    let (negative, rest) := Decimal.splitSign text
    match plainDigits? rest with
    | some digits =>
      let n : Int := Decimal.ofDigits digits
      whole? (if negative then -n else n)
    | none =>
      ((named? rest).or (decimal? rest)).map fun v => .decimal (if negative then -v else v)

end CurvePlot.Settings.File
