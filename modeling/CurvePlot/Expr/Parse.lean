import CurvePlot.Parameter
import CurvePlot.Token
/-!
# Reading expressions

`Expr.parse` reads a list of tokens as an expression. From the loosest to the
tightest, a text is built of

* conditions joined by `&&` and `||`, both of one strength, grouped to the left;
* comparisons, a chain of which holds if every link does;
* sums and differences, grouped to the left;
* products and quotients, grouped to the left, where things that only stand side
  by side are multiplied too;
* signs;
* powers, whose exponent may have a sign and a power of its own;
* numbers, letters, calls and expressions in parentheses.

Every reader returns the tokens behind what it has read, and with them the fact
that they are fewer, by which the readers end.
-/

namespace CurvePlot

/-- What a reader has read, with fewer than `n` tokens left behind it. -/
structure Parsed (n : Nat) where
  /-- The expression that was read. -/
  tree : Expr
  /-- The tokens behind it. -/
  rest : List Placed
  /-- There are fewer tokens left. -/
  shorter : rest.length < n

namespace Parsed

/-- What was read, seen from a place with at least as many tokens. -/
def weaken {m n : Nat} (p : Parsed m) (h : m ≤ n) : Parsed n :=
  ⟨p.tree, p.rest, Nat.lt_of_lt_of_le p.shorter h⟩

/-- The same tokens read as another tree. -/
def withTree {n : Nat} (p : Parsed n) (tree : Expr) : Parsed n := { p with tree := tree }

end Parsed

namespace Expr

/-- A letter that stands for itself: a coordinate, a parameter of the table, or
one. -/
def ofLetter (t : Parameter.Table) (c : Char) : Expr :=
  if c = 'x' then .x
  else if c = 'y' then .y
  else if t.contains c then .parameter c
  else .constant 1.0

/-- Letters that name no function: one of the two constants, or the product of
the letters one by one. -/
def ofWord (t : Parameter.Table) (letters : List Char) : Expr :=
  if letters = ['p', 'i'] then .constant circleConstant
  else if letters = ['e'] then .constant naturalBase
  else
    -- letters side by side are factors, and the first one begins the product
    match letters.map (ofLetter t) with
    | [] => .constant 1.0
    | a :: rest => rest.foldl .mul a

/-- Whether a token begins a factor that may follow another without a sign
between them. -/
def beginsFactor : Token → Bool
  | .number _ | .word _ | .pi | .leftParen => true
  | _ => false

/-- Takes the closing parenthesis that has to come next. -/
def closing {n : Nat} (opened : Nat) (p : Parsed n) : Except CompileError (Parsed n) :=
  match p with
  | ⟨tree, (.rightParen, _) :: rest, h⟩ =>
    .ok ⟨tree, rest, by simp only [List.length_cons] at h; omega⟩
  | _ => .error (.unmatchedParenthesis opened)

namespace Reader

mutual

/-- Reads conditions joined by connectives. -/
def conditions (t : Parameter.Table) (ts : List Placed) : Except CompileError (Parsed ts.length) :=
  match chain t ts with
  | .error e => .error e
  | .ok a =>
    match conditionsTail t a.tree a.rest with
    | .error e => .error e
    | .ok b => .ok (b.weaken a.shorter)
-- where no token is taken, the number behind the length tells the readers apart:
-- the tighter the phrase, the smaller it is
termination_by (ts.length, 12)
decreasing_by
  · exact Prod.Lex.right _ (by omega)
  · exact Prod.Lex.left _ _ a.shorter

/-- Reads the connectives and conditions behind a condition. -/
def conditionsTail (t : Parameter.Table) (lhs : Expr) (ts : List Placed) :
    Except CompileError (Parsed (ts.length + 1)) :=
  match ts with
  | (.connective op, _) :: rest =>
    match chain t rest with
    | .error e => .error e
    | .ok a =>
      match conditionsTail t (.logical op lhs a.tree) a.rest with
      | .error e => .error e
      | .ok b => .ok (b.weaken (by have := a.shorter; simp only [List.length_cons]; omega))
  | ts => .ok ⟨lhs, ts, by omega⟩
termination_by (ts.length, 11)
decreasing_by
  · exact Prod.Lex.left _ _ (by simp)
  · exact Prod.Lex.left _ _ (by have := a.shorter; simp only [List.length_cons]; omega)

/-- Reads a chain of comparisons. -/
def chain (t : Parameter.Table) (ts : List Placed) : Except CompileError (Parsed ts.length) :=
  match sum t ts with
  | .error e => .error e
  | .ok a =>
    match chainTail t none a.tree a.rest with
    | .error e => .error e
    | .ok b => .ok (b.weaken a.shorter)
termination_by (ts.length, 10)
decreasing_by
  · exact Prod.Lex.right _ (by omega)
  · exact Prod.Lex.left _ _ a.shorter

/-- Reads the links behind the side `lhs` of a chain, given the links before it. -/
def chainTail (t : Parameter.Table) (links : Option Expr) (lhs : Expr) (ts : List Placed) :
    Except CompileError (Parsed (ts.length + 1)) :=
  match ts with
  | (.comparison op, _) :: rest =>
    match sum t rest with
    | .error e => .error e
    | .ok a =>
      let link := Expr.compare op lhs a.tree
      let links := match links with
        | some before => Expr.logical .and before link
        | none => link
      -- the side that was just read is the left side of the next link too
      match chainTail t (some links) a.tree a.rest with
      | .error e => .error e
      | .ok b => .ok (b.weaken (by have := a.shorter; simp only [List.length_cons]; omega))
  | ts => .ok ⟨links.getD lhs, ts, by omega⟩
termination_by (ts.length, 9)
decreasing_by
  · exact Prod.Lex.left _ _ (by simp)
  · exact Prod.Lex.left _ _ (by have := a.shorter; simp only [List.length_cons]; omega)

/-- Reads sums and differences. -/
def sum (t : Parameter.Table) (ts : List Placed) : Except CompileError (Parsed ts.length) :=
  match product t ts with
  | .error e => .error e
  | .ok a =>
    match sumTail t a.tree a.rest with
    | .error e => .error e
    | .ok b => .ok (b.weaken a.shorter)
termination_by (ts.length, 8)
decreasing_by
  · exact Prod.Lex.right _ (by omega)
  · exact Prod.Lex.left _ _ a.shorter

/-- Reads the summands behind a summand. -/
def sumTail (t : Parameter.Table) (lhs : Expr) (ts : List Placed) :
    Except CompileError (Parsed (ts.length + 1)) :=
  match ts with
  | (.plus, _) :: rest =>
    match product t rest with
    | .error e => .error e
    | .ok a =>
      match sumTail t (.binary .add lhs a.tree) a.rest with
      | .error e => .error e
      | .ok b => .ok (b.weaken (by have := a.shorter; simp only [List.length_cons]; omega))
  | (.minus, _) :: rest =>
    match product t rest with
    | .error e => .error e
    | .ok a =>
      match sumTail t (.binary .sub lhs a.tree) a.rest with
      | .error e => .error e
      | .ok b => .ok (b.weaken (by have := a.shorter; simp only [List.length_cons]; omega))
  | ts => .ok ⟨lhs, ts, by omega⟩
termination_by (ts.length, 7)
decreasing_by
  · exact Prod.Lex.left _ _ (by simp)
  · exact Prod.Lex.left _ _ (by have := a.shorter; simp only [List.length_cons]; omega)
  · exact Prod.Lex.left _ _ (by simp)
  · exact Prod.Lex.left _ _ (by have := a.shorter; simp only [List.length_cons]; omega)

/-- Reads products and quotients. -/
def product (t : Parameter.Table) (ts : List Placed) :
    Except CompileError (Parsed ts.length) :=
  match signed t ts with
  | .error e => .error e
  | .ok a =>
    match productTail t a.tree a.rest with
    | .error e => .error e
    | .ok b => .ok (b.weaken a.shorter)
termination_by (ts.length, 6)
decreasing_by
  · exact Prod.Lex.right _ (by omega)
  · exact Prod.Lex.left _ _ a.shorter

/-- Reads the factors behind a factor. -/
def productTail (t : Parameter.Table) (lhs : Expr) (ts : List Placed) :
    Except CompileError (Parsed (ts.length + 1)) :=
  match ts with
  | [] => .ok ⟨lhs, [], by simp⟩
  | (.star, _) :: rest =>
    match signed t rest with
    | .error e => .error e
    | .ok a =>
      match productTail t (.binary .mul lhs a.tree) a.rest with
      | .error e => .error e
      | .ok b => .ok (b.weaken (by have := a.shorter; simp only [List.length_cons]; omega))
  | (.slash, _) :: rest =>
    match signed t rest with
    | .error e => .error e
    | .ok a =>
      match productTail t (.binary .div lhs a.tree) a.rest with
      | .error e => .error e
      | .ok b => .ok (b.weaken (by have := a.shorter; simp only [List.length_cons]; omega))
  | p :: rest =>
    if beginsFactor p.1 then
      -- nothing stands for the multiplication, so no token is taken for it
      match signed t (p :: rest) with
      | .error e => .error e
      | .ok a =>
        match productTail t (.binary .mul lhs a.tree) a.rest with
        | .error e => .error e
        | .ok b => .ok (b.weaken (by have := a.shorter; omega))
    else .ok ⟨lhs, p :: rest, by omega⟩
termination_by (ts.length, 5)
decreasing_by
  · exact Prod.Lex.left _ _ (by simp)
  · exact Prod.Lex.left _ _ (by have := a.shorter; simp only [List.length_cons]; omega)
  · exact Prod.Lex.left _ _ (by simp)
  · exact Prod.Lex.left _ _ (by have := a.shorter; simp only [List.length_cons]; omega)
  · exact Prod.Lex.right _ (by omega)
  · exact Prod.Lex.left _ _ a.shorter

/-- Reads a power behind any number of signs. -/
def signed (t : Parameter.Table) (ts : List Placed) : Except CompileError (Parsed ts.length) :=
  match ts with
  | (.plus, _) :: rest =>
    match signed t rest with
    | .error e => .error e
    | .ok a => .ok (a.weaken (by simp))
  | (.minus, _) :: rest =>
    match signed t rest with
    | .error e => .error e
    | .ok a => .ok ((a.withTree (.neg a.tree)).weaken (by simp))
  | ts => power t ts
termination_by (ts.length, 4)
decreasing_by
  · exact Prod.Lex.left _ _ (by simp)
  · exact Prod.Lex.left _ _ (by simp)
  · exact Prod.Lex.right _ (by omega)

/-- Reads a base and its exponent, if it has one. -/
def power (t : Parameter.Table) (ts : List Placed) : Except CompileError (Parsed ts.length) :=
  match atom t ts with
  | .error e => .error e
  | .ok ⟨base, (.caret, _) :: rest, h⟩ =>
    -- the exponent may have signs and an exponent of its own
    match signed t rest with
    | .error e => .error e
    | .ok a =>
      .ok ((a.withTree (.binary .pow base a.tree)).weaken (by
        simp only [List.length_cons] at h; omega))
  | .ok a => .ok a
termination_by (ts.length, 3)
decreasing_by
  · exact Prod.Lex.right _ (by omega)
  · exact Prod.Lex.left _ _ (by simp only [List.length_cons] at h; omega)

/-- Reads what no operation divides. -/
def atom (t : Parameter.Table) (ts : List Placed) : Except CompileError (Parsed ts.length) :=
  match ts with
  | [] => .error .unexpectedEnd
  | (.number v, _) :: rest => .ok ⟨.constant v, rest, by simp⟩
  | (.pi, _) :: rest => .ok ⟨.constant circleConstant, rest, by simp⟩
  | (.leftParen, opened) :: rest =>
    match conditions t rest with
    | .error e => .error e
    | .ok a => closing opened (a.weaken (by simp))
  | (.word letters, _) :: (.leftParen, opened) :: rest =>
    -- a word before a parenthesis has to be a function: it is never a product here
    match Elementary.ofName? (String.ofList letters) with
    | none => .error (.unknownFunction (String.ofList letters))
    | some f =>
      match conditions t rest with
      | .error e => .error e
      | .ok a =>
        closing opened
          ((a.withTree (.call f a.tree)).weaken (by simp only [List.length_cons]; omega))
  | (.word letters, _) :: rest => .ok ⟨ofWord t letters, rest, by simp⟩
  | (token, position) :: _ => .error (.unexpectedToken position token.text)
termination_by (ts.length, 2)
decreasing_by
  · exact Prod.Lex.left _ _ (by simp)
  · exact Prod.Lex.left _ _ (by simp only [List.length_cons]; omega)

end

end Reader

/-- **The expression that a list of tokens reads as,** with the letters of the
table as parameters. -/
def parse (t : Parameter.Table) (ts : List Placed) : Except CompileError Expr :=
  match ts with
  | [] => .error .empty
  | ts =>
    match Reader.conditions t ts with
    | .error e => .error e
    | .ok ⟨tree, [], _⟩ => .ok tree
    | .ok ⟨_, (token, position) :: _, _⟩ => .error (.unexpectedToken position token.text)

/-- The expression that a text reads as. -/
def read (t : Parameter.Table) (text : List Char) : Except CompileError Expr :=
  match Token.scan text with
  | .error e => .error e
  | .ok ts => parse t ts

end Expr

end CurvePlot
