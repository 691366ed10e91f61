import CurvePlot.Decimal.Literal
import CurvePlot.Settings.File.Number
import CurvePlot.Text.Blank
/-!
# Quoted texts and keys in settings files

A text stands between double quotes, with escapes, or between single quotes,
without. Three quotes of a kind enclose a text over several lines, which may end
in one or two quotes of its own. A key is a quoted text on one line, or letters,
digits, underscores and dashes without quotes.

Line ends are single line feeds here.
-/

namespace CurvePlot.Settings.File

/-- Whether a character may stand on a line of a text or a comment. -/
def isAllowed (c : Char) : Bool := c = '\t' || (0x20 ≤ c.toNat && c.toNat != 0x7f)

def isSpace (c : Char) : Bool := c = ' ' || c = '\t'

/-- The text without the spaces and tabs it begins with. -/
def skipSpace (text : List Char) : List Char := text.dropWhile isSpace

/-- The text without the spaces, comments and line ends it begins with. A comment
with a character that may not stand in it ends at that character. -/
def skipLines (inComment : Bool) : List Char → List Char
  | [] => []
  | c :: rest =>
    if c = '\n' then skipLines false rest
    else if inComment then (if isAllowed c then skipLines true rest else c :: rest)
    else if isSpace c then skipLines false rest
    else if c = '#' then skipLines true rest
    else c :: rest

/-- The character that hexadecimal digits count. -/
def counted? (digits : List Char) : Option Char :=
  let n := ofDigits 16 digits
  if digits.all (isDigitOf 16) && decide n.isValidChar then some (Char.ofNat n) else none

/-- The character that a letter behind a backslash stands for. -/
def escape? : Char → Option Char
  | 'b' => some '\x08'
  | 't' => some '\t'
  | 'n' => some '\n'
  | 'f' => some '\x0c'
  | 'r' => some '\r'
  | 'e' => some '\x1b'
  | '"' => some '"'
  | '\\' => some '\\'
  | _ => none

/-- Reads what stands behind a backslash: one character by its short name or by
two, four or eight hexadecimal digits. -/
def escaped? : List Char → Option (Char × List Char)
  | 'x' :: a :: b :: rest => (counted? [a, b]).map fun c => (c, rest)
  | 'u' :: a :: b :: c :: d :: rest => (counted? [a, b, c, d]).map fun c => (c, rest)
  | 'U' :: a :: b :: c :: d :: e :: f :: g :: h :: rest =>
    (counted? [a, b, c, d, e, f, g, h]).map fun c => (c, rest)
  | c :: rest => (escape? c).map fun c => (c, rest)
  | [] => none

theorem length_escaped?_lt {text rest : List Char} {c : Char}
    (h : escaped? text = some (c, rest)) : rest.length < text.length := by
  unfold escaped? at h
  split at h
  all_goals first
    | (simp only [reduceCtorEq] at h)
    | (obtain ⟨_, _, h⟩ := Option.map_eq_some_iff.1 h
       simp only [Prod.mk.injEq] at h
       obtain ⟨_, rfl⟩ := h
       simp only [List.length_cons]
       omega)

/-- Reads a text up to its double quote, and what stands behind it. -/
def quotedText? : List Char → Option (List Char × List Char)
  | [] => none
  | '"' :: rest => some ([], rest)
  | '\\' :: rest =>
    match _h : escaped? rest with
    | none => none
    | some (first, behind) => (quotedText? behind).map fun (text, rest) => (first :: text, rest)
  | c :: rest =>
    if isAllowed c then (quotedText? rest).map fun (text, rest) => (c :: text, rest) else none
termination_by text => text.length
decreasing_by
  · have := length_escaped?_lt _h
    simp only [List.length_cons]
    omega
  · simp only [List.length_cons]
    omega

/-- Reads a text up to its single quote, and what stands behind it. -/
def literalText? (text : List Char) : Option (List Char × List Char) :=
  (Decimal.splitAt? '\'' text).filter fun (content, _) => content.all isAllowed

/-- What stands behind three quotes, and behind one or two more of them. -/
def behindThree? (quote : Char) (text : List Char) : Option (List Char) := do
  let rest ← Text.dropStart? [quote, quote, quote] text
  let more := (rest.take 2).takeWhile (· == quote)
  some (rest.drop more.length)

/-- What stands behind a backslash at the end of a line and the blanks after it. -/
def behindLineEnd? (text : List Char) : Option (List Char) :=
  match skipSpace text with
  | '\n' :: rest => some (rest.dropWhile fun c => isSpace c || c == '\n')
  | _ => none

/-- What stands behind a text over several lines in double quotes, that has at
most `fuel` characters. -/
def behindQuotedLines? : (fuel : Nat) → List Char → Option (List Char)
  | 0, _ => none
  | fuel + 1, text =>
    -- the end is looked for first, as quotes inside the text need no escapes
    match behindThree? '"' text with
    | some rest => some rest
    | none =>
      match text with
      | [] => none
      | '\\' :: rest =>
        match behindLineEnd? rest with
        | some rest => behindQuotedLines? fuel rest
        | none => (escaped? rest).bind fun (_, rest) => behindQuotedLines? fuel rest
      | c :: rest => if isAllowed c || c == '\n' then behindQuotedLines? fuel rest else none

/-- What stands behind a text over several lines in single quotes. -/
def behindLiteralLines? : List Char → Option (List Char)
  | [] => none
  | c :: rest =>
    match behindThree? '\'' (c :: rest) with
    | some rest => some rest
    | none => if isAllowed c || c == '\n' then behindLiteralLines? rest else none

/-- What stands behind a quoted text. -/
def behindText? : List Char → Option (List Char)
  | '"' :: '"' :: '"' :: rest => behindQuotedLines? (rest.length + 1) rest
  | '\'' :: '\'' :: '\'' :: rest => behindLiteralLines? rest
  | '"' :: rest => (quotedText? rest).map (·.2)
  | '\'' :: rest => (literalText? rest).map (·.2)
  | _ => none

/-! ### Keys -/

/-- Whether a character may stand in a key without quotes. -/
def isKeyChar (c : Char) : Bool := c.isAlphanum || c = '_' || c = '-'

/-- Reads one key, and what stands behind it and the spaces after it. -/
def key? (text : List Char) : Option (String × List Char) := do
  let (key, rest) ← match text with
    | '"' :: rest => quotedText? rest
    | '\'' :: rest => literalText? rest
    | _ => (some (text.takeWhile isKeyChar, text.dropWhile isKeyChar)).filter fun p => !p.1.isEmpty
  some (String.ofList key, skipSpace rest)

/-- Reads keys with points between them, at most `fuel` of them. -/
def keys? : (fuel : Nat) → List Char → Option (List String × List Char)
  | 0, _ => none
  | fuel + 1, text => do
    let (key, rest) ← key? text
    match rest with
    | '.' :: rest =>
      let (keys, rest) ← keys? fuel (skipSpace rest)
      some (key :: keys, rest)
    | _ => some ([key], rest)

/-- The most keys of a path. -/
def longestPath : Nat := 80

/-- Reads the path of an entry or a heading: keys with points between them. -/
def path? (text : List Char) : Option (List String × List Char) := keys? longestPath text

end CurvePlot.Settings.File
