import CurvePlot.Text.Blank
/-!
# Sheets of equations

A sheet is a text with one equation a line. Blank lines and the blanks around an
equation mean nothing.
-/

namespace CurvePlot.Sheet

/-- A text as it stands on a line: a line break in it becomes a space. -/
def flatten (text : List Char) : List Char :=
  text.map fun c => if c = '\r' || c = '\n' then ' ' else c

/-- The sheet with those texts. -/
def write (texts : List String) : String :=
  String.ofList (texts.flatMap fun text => flatten text.toList ++ ['\n'])

/-- The lines of a text, which never end in a line feed: the last has none, and
is blank if the text ends in one. -/
def lines : List Char → List (List Char)
  | [] => [[]]
  | c :: rest =>
    if c = '\n' then [] :: lines rest
    else
      match lines rest with
      | [] => [[c]]
      | line :: later => (c :: line) :: later

/-- The texts on a sheet. -/
def read (sheet : String) : List String :=
  (((lines sheet.toList).map Text.trim).filter fun line => !line.isEmpty).map String.ofList

end CurvePlot.Sheet
