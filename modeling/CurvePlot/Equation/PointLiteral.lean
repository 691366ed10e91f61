import CurvePlot.Decimal.Literal
import CurvePlot.Text.Blank
/-!
# Point literals

A text that is two plain decimals in parentheses, with a comma between them, is a
point. Blanks may stand around the text and around each decimal.
-/

namespace CurvePlot.PointLiteral

/-- The value of a plain decimal: an optional minus, at least one digit, and
optionally a point with digits behind it. -/
def decimal? (text : List Char) : Option Float :=
  let (negative, unsigned) := match text with
    | '-' :: rest => (true, rest)
    | rest => (false, rest)
  let (whole, fraction) := Decimal.splitPoint unsigned
  if !whole.isEmpty && Decimal.allDigits whole && Decimal.allDigits fraction then
    let magnitude := Decimal.nearest whole fraction 0
    some (if negative then -magnitude else magnitude)
  else none

/-- The text between an opening parenthesis at the start and a closing one at the
end. -/
def insideParens? (text : List Char) : Option (List Char) :=
  match text with
  | '(' :: rest => if rest.getLast? = some ')' then some rest.dropLast else none
  | _ => none

/-- The coordinates of the point that a text is, if it is one. -/
def read? (text : List Char) : Option (Float × Float) := do
  let inside ← insideParens? (Text.trim text)
  let (x, y) ← Decimal.splitAt? ',' inside
  return (← decimal? (Text.trim x), ← decimal? (Text.trim y))

end CurvePlot.PointLiteral
