import CurvePlot.CompileError
import CurvePlot.Decimal.Literal
import CurvePlot.Expr.Text
import CurvePlot.Text.Blank
/-!
# Tokens

The words of an expression's text. `Token.scan` cuts a text into its tokens, each
with its position: the longest token that starts at a place is the one that
stands there, and only blanks are left out.
-/

namespace CurvePlot

/-- A word of an expression's text. -/
inductive Token where
  | plus | minus | star | slash | caret
  | leftParen | rightParen
  | comparison (op : Comparison)
  | connective (op : Connective)
  /-- The circle constant, by its Greek letter. -/
  | pi
  | number (value : Float)
  /-- Letters written together. -/
  | word (letters : List Char)
deriving Repr, DecidableEq

/-- A token and the position of its first byte. -/
abbrev Placed := Token × Nat

namespace Token

/-- The text of a token, in its first spelling. -/
def text : Token → String
  | plus => "+" | minus => "-" | star => "*" | slash => "/" | caret => "^"
  | leftParen => "(" | rightParen => ")"
  | comparison op => op.symbol
  | connective op => op.symbol
  | pi => "π"
  | number value => Decimal.plain value
  | word letters => String.ofList letters

/-- The tokens of one spelling or of several, longer spellings before those that
begin them. -/
def symbols : List (List Char × Token) :=
  [(['<', '='], comparison .lessEqual), (['≤'], comparison .lessEqual),
   (['<'], comparison .less),
   (['>', '='], comparison .greaterEqual), (['≥'], comparison .greaterEqual),
   (['>'], comparison .greater),
   (['=', '='], comparison .equal), (['='], comparison .equal),
   (['&', '&'], connective .and), (['|', '|'], connective .or),
   (['+'], plus), (['-'], minus),
   (['*'], star), (['⋅'], star), (['·'], star), (['×'], star),
   (['/'], slash), (['^'], caret), (['('], leftParen), ([')'], rightParen), (['π'], pi)]

/-- Whether a character stands between tokens without meaning. -/
def isSkipped (c : Char) : Bool :=
  c == ' ' || c == '\t' || c == '\r' || c == '\n' || c == '\x0c'

/-- Whether a character belongs to a number. -/
def isNumeric (c : Char) : Bool := c.isDigit || c == '.'

/-- The token that a text begins with, and how many characters it takes. Digits
and points are one run, and so are letters. -/
def first? (text : List Char) : Option (Token × Nat) :=
  let digits := text.takeWhile isNumeric
  let letters := text.takeWhile Char.isAlpha
  -- a run of digits and points that is no number is an error, not two numbers
  if !digits.isEmpty then (Decimal.bare? digits).map fun v => (number v, digits.length)
  else if !letters.isEmpty then some (word letters, letters.length)
  else
    symbols.findSome? fun (spelling, token) =>
      if spelling.isPrefixOf text then some (token, spelling.length) else none

/-- The tokens of a text that begins at a position. -/
def scanFrom (position : Nat) : List Char → Except CompileError (List Placed)
  | [] => .ok []
  | c :: rest =>
    if isSkipped c then scanFrom (position + 1) rest
    else
      match first? (c :: rest) with
      | some (token, count) =>
        let width := Text.byteLength ((c :: rest).take count)
        match scanFrom (position + width) (rest.drop (count - 1)) with
        | .ok placed => .ok ((token, position) :: placed)
        | .error e => .error e
      | none =>
        .error (if isNumeric c then .invalidNumber position else .unexpectedCharacter position c)
termination_by text => text.length
decreasing_by all_goals simp only [List.length_cons, List.length_drop]; omega

/-- **The tokens of a text,** or what stands where no token begins. -/
def scan (text : List Char) : Except CompileError (List Placed) := scanFrom 0 text

end Token

end CurvePlot
