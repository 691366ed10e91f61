import CurvePlot.Settings.File.Moment
import CurvePlot.Settings.File.Quoted
import CurvePlot.Settings.File.Tree
/-!
# Values in settings files

A value is a word (a number, a truth value or a moment), a quoted text, a list in
brackets or a table in braces. Lists and tables may go over several lines, with a
line end wherever a space may stand outside of keys, and may end in a comma. They
nest at most `greatestDepth` deep. Of all these only numbers are kept.
-/

namespace CurvePlot.Settings.File

/-- How deep lists and tables in braces may nest. -/
def greatestDepth : Nat := 80

/-- Whether a character may stand in a word. -/
def isWordChar (c : Char) : Bool :=
  !isSpace c && c ∉ ['\n', '#', ',', '=', '[', ']', '\x7b', '\x7d']

/-- A word at the beginning of a text, and what stands behind it. A date takes the
word behind a single space with it. -/
def splitWord (text : List Char) : List Char × List Char :=
  let word := text.takeWhile isWordChar
  let rest := text.dropWhile isWordChar
  match rest with
  | ' ' :: behind =>
    let time := behind.takeWhile isWordChar
    if isDate word && !time.isEmpty then (word ++ ' ' :: time, behind.dropWhile isWordChar)
    else (word, rest)
  | _ => (word, rest)

/-- The value that a word stands for. -/
def word? (word : List Char) : Option Value :=
  if word = "true".toList || word = "false".toList || isMoment word then some .other
  else number? word

mutual

/-- Reads a value, and what stands behind it. It may hold lists and tables up to
`depth`, and all in all at most `fuel` values. -/
def value? : (fuel depth : Nat) → List Char → Option (Value × List Char)
  | 0, _, _ => none
  | _ + 1, 0, '[' :: _ => none
  | _ + 1, 0, '\x7b' :: _ => none
  | fuel + 1, depth + 1, '[' :: rest =>
    (behindItems? fuel depth (skipLines false rest)).map fun rest => (.other, rest)
  | fuel + 1, depth + 1, '\x7b' :: rest =>
    (behindPairs? fuel depth [] (skipLines false rest)).map fun rest => (.other, rest)
  | _ + 1, _, '"' :: rest => (behindText? ('"' :: rest)).map fun rest => (.other, rest)
  | _ + 1, _, '\'' :: rest => (behindText? ('\'' :: rest)).map fun rest => (.other, rest)
  | _ + 1, _, text =>
    let (word, rest) := splitWord text
    (word? word).map fun v => (v, rest)

/-- What stands behind the items of a list and its closing bracket. -/
def behindItems? : (fuel depth : Nat) → List Char → Option (List Char)
  | 0, _, _ => none
  | _ + 1, _, ']' :: rest => some rest
  | fuel + 1, depth, text => do
    let (_, rest) ← value? fuel depth text
    match skipLines false rest with
    | ',' :: rest => behindItems? fuel depth (skipLines false rest)
    | ']' :: rest => some rest
    | _ => none

/-- What stands behind the entries of a table and its closing brace, given the
entries before. -/
def behindPairs? : (fuel depth : Nat) → Entries → List Char → Option (List Char)
  | 0, _, _, _ => none
  | _ + 1, _, _, '\x7d' :: rest => some rest
  | fuel + 1, depth, entries, text => do
    let (path, rest) ← path? text
    let rest ← Text.dropStart? ['='] (skipLines false rest)
    let (v, rest) ← value? fuel depth (skipLines false rest)
    let entries ← entries.insert? path v
    match skipLines false rest with
    | ',' :: rest => behindPairs? fuel depth entries (skipLines false rest)
    | '\x7d' :: rest => some rest
    | _ => none

end

/-- Reads a path, an equality sign and a value, and what stands behind them. -/
def entry? (text : List Char) : Option (List String × Value × List Char) := do
  let (path, rest) ← path? text
  let rest ← Text.dropStart? ['='] rest
  let (v, rest) ← value? (text.length + 1) greatestDepth (skipSpace rest)
  some (path, v, rest)

end CurvePlot.Settings.File
