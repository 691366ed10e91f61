import CurvePlot.Decimal.Literal
import CurvePlot.Text.Blank
/-!
# Moments in settings files

Dates such as `2020-02-29`, times such as `23:59:60.5`, and both together with a
`T` or a space between them and perhaps a time zone behind. No setting is a
moment, so only their form matters.
-/

namespace CurvePlot.Settings.File

/-- Reads a number of so many digits. -/
def digits? (count : Nat) (text : List Char) : Option (Nat × List Char) :=
  let digits := text.take count
  if digits.length == count && Decimal.allDigits digits then
    some (Decimal.ofDigits digits, text.drop count)
  else none

/-- Whether a year has a leap day. -/
def isLeap (year : Nat) : Bool := year % 4 == 0 && (year % 100 != 0 || year % 400 == 0)

/-- How many days a month has. -/
def daysIn (year month : Nat) : Nat :=
  if month = 2 then (if isLeap year then 29 else 28)
  else if month = 4 || month = 6 || month = 9 || month = 11 then 30
  else 31

/-- What stands behind a date. -/
def behindDate? (text : List Char) : Option (List Char) := do
  let (year, rest) ← digits? 4 text
  let (month, rest) ← digits? 2 (← Text.dropStart? ['-'] rest)
  let (day, rest) ← digits? 2 (← Text.dropStart? ['-'] rest)
  if 1 ≤ month ∧ month ≤ 12 ∧ 1 ≤ day ∧ day ≤ daysIn year month then some rest else none

/-- What stands behind hours and minutes. -/
def behindClock? (text : List Char) : Option (List Char) := do
  let (hour, rest) ← digits? 2 text
  let (minute, rest) ← digits? 2 (← Text.dropStart? [':'] rest)
  if hour < 24 ∧ minute < 60 then some rest else none

/-- What stands behind the fraction of a second, if there is one. -/
def behindFraction? : List Char → Option (List Char)
  | '.' :: rest => if rest.head?.any Char.isDigit then some (rest.dropWhile Char.isDigit) else none
  | text => some text

/-- What stands behind a time. Seconds may be left out, and one may be a leap
second. -/
def behindTime? (text : List Char) : Option (List Char) := do
  match ← behindClock? text with
  | ':' :: rest =>
    let (second, rest) ← digits? 2 rest
    if second ≤ 60 then behindFraction? rest else none
  | rest => some rest

/-- What stands behind a time zone, if there is one. -/
def behindZone? : List Char → Option (List Char)
  | 'Z' :: rest | 'z' :: rest => some rest
  | '+' :: rest | '-' :: rest => behindClock? rest
  | text => some text

def isDate (text : List Char) : Bool := behindDate? text == some []

def isMoment (text : List Char) : Bool :=
  match behindDate? text with
  | none => behindTime? text == some []
  | some [] => true
  | some (between :: rest) =>
    (between == 'T' || between == 't' || between == ' ')
      && (behindTime? rest).bind behindZone? == some []

end CurvePlot.Settings.File
