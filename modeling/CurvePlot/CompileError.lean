/-!
# Why a text is no equation

The causes for which a text cannot be compiled, each with what there is to say
about it, and the message that tells it. Positions count the bytes of UTF-8
before the place that is meant.
-/

namespace CurvePlot

/-- A cause for which a text is no equation. -/
inductive CompileError where
  | empty
  /-- A character that begins no token. -/
  | unexpectedCharacter (position : Nat) (found : Char)
  /-- A token that cannot stand where it does. -/
  | unexpectedToken (position : Nat) (found : String)
  | unexpectedEnd
  /-- A call of a name that no function has. -/
  | unknownFunction (name : String)
  /-- A parenthesis, opened there, that is not closed. -/
  | unmatchedParenthesis (position : Nat)
  | unmatchedBrace
  /-- Digits and points that are no number. -/
  | invalidNumber (position : Nat)
deriving Repr, DecidableEq

namespace CompileError

/-- The message that tells the cause. -/
def message : CompileError → String
  | empty => "equation is empty"
  | unexpectedCharacter position found =>
    "unexpected character '" ++ String.singleton found ++ "' at #" ++ toString position
  | unexpectedToken position found => "unexpected \"" ++ found ++ "\" at #" ++ toString position
  | unexpectedEnd => "equation ended unexpectedly"
  | unknownFunction name => "unknown function \"" ++ name ++ "\""
  | unmatchedParenthesis position =>
    "parenthesis opened at #" ++ toString position ++ " is never closed"
  | unmatchedBrace => "domain restriction is missing its closing brace"
  | invalidNumber position => "malformed number at #" ++ toString position

end CompileError

end CurvePlot
