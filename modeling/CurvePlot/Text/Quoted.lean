import CurvePlot.Text.Printable
/-!
# Quoted text

Inside quotes a character is written as itself if it prints. Quotes of both
kinds, the backslash and the usual control characters have a short escape, and
every other character is written by its number.
-/

namespace CurvePlot.Text

/-- A character as it is written inside quotes. -/
def escaped (c : Char) : List Char :=
  match c.toNat with
  | 0 => ['\\', '0']
  | 9 => ['\\', 't']
  | 10 => ['\\', 'n']
  | 13 => ['\\', 'r']
  | 34 => ['\\', c]
  | 39 => ['\\', c]
  | 92 => ['\\', c]
  | n =>
    if isPrintable c then [c]
    else ['\\', 'u', '\x7b'] ++ Nat.toDigits 16 n ++ ['\x7d']

/-- A text between double quotes. -/
def quoted (text : String) : String :=
  String.ofList ('"' :: text.toList.flatMap escaped ++ ['"'])

end CurvePlot.Text
