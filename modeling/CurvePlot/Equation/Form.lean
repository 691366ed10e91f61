import CurvePlot.CompileError
import CurvePlot.Decimal.Literal
import CurvePlot.Text.Blank
/-!
# The form of an equation's text

Before its expressions are read, an equation's text is taken apart:

* a part in braces at its end restricts the domain; commas and the word `and`
  join the conditions in it;
* a body behind `y =` or `f(x) =` is the curve's value;
* a body with one other equality sign is a relation between two sides, and is
  read as their difference;
* any other body stands for itself.

Texts are in lower case here, and positions count bytes.
-/

namespace CurvePlot

/-- What the body of an equation says. -/
inductive FormKind where
  /-- The value of the curve, behind `y =` or `f(x) =`. -/
  | explicit
  /-- An expression without any equality sign of its own. -/
  | bare
  /-- A relation between the coordinates. -/
  | relation
deriving Repr, DecidableEq

/-- The parts of an equation's text. -/
structure Form where
  kind : FormKind
  body : List Char
  /-- The condition of the domain restriction, if there is one. -/
  limit : Option (List Char)
deriving Repr, DecidableEq

namespace Form

/-- The text with every `and` and every comma written as the connective. -/
def joined : List Char → List Char
  | [] => []
  | 'a' :: 'n' :: 'd' :: rest => '&' :: '&' :: joined rest
  | c :: rest => if c = ',' then '&' :: '&' :: joined rest else c :: joined rest

/-- A text cut at its last character `c`, which neither part holds; none if it
has no such character. -/
def splitAtLast? (c : Char) (text : List Char) : Option (List Char × List Char) :=
  (Decimal.splitAt? c text.reverse).map fun (after, before) => (before.reverse, after.reverse)

/-- The text before a domain restriction and the condition in it. The
restriction opens at the first brace, closes at the last, and ends the text. A
blank condition restricts nothing. -/
def splitLimit (text : List Char) : Except CompileError (List Char × Option (List Char)) :=
  match Decimal.splitAt? '\x7b' text with
  | none => .ok (Text.trim text, none)
  | some (math, behind) =>
    match splitAtLast? '\x7d' behind with
    | none => .error .unmatchedBrace
    | some (inside, after) =>
      let tail := Text.trim after
      if tail.isEmpty then
        let condition := joined (Text.trim inside)
        .ok (Text.trim math, if condition.isEmpty then none else some condition)
      else
        .error (.unexpectedToken (Text.byteLength text - Text.byteLength after)
          (String.ofList tail))

/-- What stands behind `y =` or `f(x) =`, if the text begins with either. -/
def explicitBody? (math : List Char) : Option (List Char) := do
  let named ← (Text.dropStart? ['f', '(', 'x', ')'] math).or (Text.dropStart? ['y'] math)
  let body ← Text.dropStart? ['='] (Text.trimStart named)
  if body.head? = some '=' then none else some body

/-- The sides of every equality sign that is no part of a comparison, given the
text before it, last character first. -/
def equalitiesAfter (before : List Char) : List Char → List (List Char × List Char)
  | [] => []
  | c :: rest =>
    -- a sign that belongs to `<=`, `>=`, `!=` or `==` divides no sides
    let inComparison := rest.head? == some '=' || before.head?.any ['<', '>', '=', '!'].contains
    let alone := c = '=' && !inComparison
    let found := equalitiesAfter (c :: before) rest
    if alone then (before.reverse, rest) :: found else found

/-- The sides of every equality sign of a text that is no part of a comparison. -/
def equalities (math : List Char) : List (List Char × List Char) := equalitiesAfter [] math

/-- The difference of two sides, as text. -/
def difference (lhs rhs : List Char) : List Char :=
  '(' :: lhs ++ [')', '-', '('] ++ rhs ++ [')']

/-- **The form of a text.** -/
def split (text : List Char) : Except CompileError Form :=
  match splitLimit text with
  | .error e => .error e
  | .ok (math, limit) =>
    if math.isEmpty then .error .empty
    else
      match explicitBody? math with
      | some body => .ok ⟨.explicit, Text.trim body, limit⟩
      | none =>
        -- several equality signs make a chain of comparisons, which is read as it stands
        match equalities math with
        | [] => .ok ⟨.bare, math, limit⟩
        | [(lhs, rhs)] => .ok ⟨.relation, difference lhs rhs, limit⟩
        | _ => .ok ⟨.relation, math, limit⟩

end Form

end CurvePlot
