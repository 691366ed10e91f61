import CurvePlot.Expr.Parse
/-!
# The grammar of expressions

`Derives t kind ts after e` says that the tokens `ts` are a phrase of the kind and
mean `e`, when the tokens `after` stand behind them. Each rule is one production;
none of them knows of a longest match or of an order in which rules are tried:

    conditions  →  chain  |  conditions connective chain
    chain       →  sum  |  links
    links       →  sum comparison sum  |  links comparison sum
    sum         →  product  |  sum "+" product  |  sum "-" product
    product     →  signed  |  product "*" signed  |  product "/" signed  |  product signed
    signed      →  "+" signed  |  "-" signed  |  power
    power       →  atom  |  atom "^" signed
    atom        →  number  |  "π"  |  "(" conditions ")"  |  word "(" conditions ")"  |  word

What stands behind a phrase matters in one rule only: a word is no atom of its own in
front of a parenthesis. In a product without a sign, the second factor has to begin
with a number, a word, `π` or a parenthesis. A link compares the side before it with
the side behind it, and a chain of links holds if all of them do.
-/

namespace CurvePlot

/-- The kinds of phrases of an expression. -/
inductive Phrase where
  | conditions
  | chain
  /-- At least one comparison, with the side that stands last. -/
  | links (last : Expr)
  | sum
  | product
  | signed
  | power
  | atom

namespace Expr

/-- **The tokens are a phrase of this kind and mean the expression,** with the tokens
`after` behind them. -/
inductive Derives (t : Parameter.Table) : Phrase → List Token → List Token → Expr → Prop where
  /-- A chain is a condition. -/
  | ofChain {u after a} : Derives t .chain u after a → Derives t .conditions u after a
  /-- Conditions are joined from the left. -/
  | join {u v after a b} (op : Connective) :
      Derives t .conditions u (.connective op :: v ++ after) a → Derives t .chain v after b →
      Derives t .conditions (u ++ .connective op :: v) after (.logical op a b)
  /-- A sum is a chain. -/
  | ofSum {u after a} : Derives t .sum u after a → Derives t .chain u after a
  /-- Links are a chain. -/
  | ofLinks {u after last a} : Derives t (.links last) u after a → Derives t .chain u after a
  /-- One comparison. -/
  | link {u v after a b} (op : Comparison) :
      Derives t .sum u (.comparison op :: v ++ after) a → Derives t .sum v after b →
      Derives t (.links b) (u ++ .comparison op :: v) after (.compare op a b)
  /-- A further comparison, of the side that stood last with the next. -/
  | moreLinks {u v after last a b} (op : Comparison) :
      Derives t (.links last) u (.comparison op :: v ++ after) a → Derives t .sum v after b →
      Derives t (.links b) (u ++ .comparison op :: v) after
        (.logical .and a (.compare op last b))
  /-- A product is a sum. -/
  | ofProduct {u after a} : Derives t .product u after a → Derives t .sum u after a
  /-- Sums are grouped to the left. -/
  | add {u v after a b} :
      Derives t .sum u (.plus :: v ++ after) a → Derives t .product v after b →
      Derives t .sum (u ++ .plus :: v) after (.binary .add a b)
  /-- And so are differences. -/
  | sub {u v after a b} :
      Derives t .sum u (.minus :: v ++ after) a → Derives t .product v after b →
      Derives t .sum (u ++ .minus :: v) after (.binary .sub a b)
  /-- A signed power is a product. -/
  | ofSigned {u after a} : Derives t .signed u after a → Derives t .product u after a
  /-- Products are grouped to the left. -/
  | mul {u v after a b} :
      Derives t .product u (.star :: v ++ after) a → Derives t .signed v after b →
      Derives t .product (u ++ .star :: v) after (.binary .mul a b)
  /-- And so are quotients. -/
  | div {u v after a b} :
      Derives t .product u (.slash :: v ++ after) a → Derives t .signed v after b →
      Derives t .product (u ++ .slash :: v) after (.binary .div a b)
  /-- And products without a sign. -/
  | juxtapose {u x v after a b} :
      Derives t .product u (x :: v ++ after) a → beginsFactor x = true →
      Derives t .signed (x :: v) after b →
      Derives t .product (u ++ x :: v) after (.binary .mul a b)
  /-- A plus changes nothing. -/
  | plus {u after a} : Derives t .signed u after a → Derives t .signed (.plus :: u) after a
  /-- A minus turns the sign over. -/
  | minus {u after a} :
      Derives t .signed u after a → Derives t .signed (.minus :: u) after (.neg a)
  /-- A power needs no sign. -/
  | ofPower {u after a} : Derives t .power u after a → Derives t .signed u after a
  /-- An atom is a power. -/
  | ofAtom {u after a} : Derives t .atom u after a → Derives t .power u after a
  /-- An exponent may have signs and an exponent of its own. -/
  | pow {u v after a b} :
      Derives t .atom u (.caret :: v ++ after) a → Derives t .signed v after b →
      Derives t .power (u ++ .caret :: v) after (.binary .pow a b)
  /-- A number. -/
  | number {after} (v : Float) : Derives t .atom [.number v] after (.constant v)
  /-- The circle constant. -/
  | pi {after} : Derives t .atom [.pi] after (.constant circleConstant)
  /-- Anything in parentheses. -/
  | parens {u after a} :
      Derives t .conditions u (.rightParen :: after) a →
      Derives t .atom (.leftParen :: u ++ [.rightParen]) after a
  /-- The call of a function that there is. -/
  | call {letters u after f a} : Elementary.ofName? (String.ofList letters) = some f →
      Derives t .conditions u (.rightParen :: after) a →
      Derives t .atom (.word letters :: .leftParen :: u ++ [.rightParen]) after (.call f a)
  /-- Letters that call nothing. -/
  | word {after} (letters : List Char) : after.head? ≠ some .leftParen →
      Derives t .atom [.word letters] after (ofWord t letters)

/-- A phrase is not empty. -/
theorem Derives.ne_nil {t : Parameter.Table} {k : Phrase} {u after : List Token} {e : Expr}
    (h : Derives t k u after e) : u ≠ [] := by
  induction h with
  | ofChain _ ih | ofSum _ ih | ofLinks _ ih | ofProduct _ ih | ofSigned _ ih | ofPower _ ih
  | ofAtom _ ih => exact ih
  | join | link | moreLinks | add | sub | mul | div | juxtapose | pow => simp
  | plus | minus | number | pi | parens | call | word => simp

/-- What stands behind a phrase counts only if it is an opening parenthesis. -/
theorem Derives.congr_after {t : Parameter.Table} {k : Phrase} {u after after' : List Token}
    {a : Expr} (h : Derives t k u after a)
    (hafter : after'.head? = some .leftParen → after.head? = some .leftParen) :
    Derives t k u after' a := by
  induction h generalizing after' with
  | ofChain _ ih => exact .ofChain (ih hafter)
  | join op _ _ iha ihb => exact .join op (iha id) (ihb hafter)
  | ofSum _ ih => exact .ofSum (ih hafter)
  | ofLinks _ ih => exact .ofLinks (ih hafter)
  | link op _ _ iha ihb => exact .link op (iha id) (ihb hafter)
  | moreLinks op _ _ iha ihb => exact .moreLinks op (iha id) (ihb hafter)
  | ofProduct _ ih => exact .ofProduct (ih hafter)
  | add _ _ iha ihb => exact .add (iha id) (ihb hafter)
  | sub _ _ iha ihb => exact .sub (iha id) (ihb hafter)
  | ofSigned _ ih => exact .ofSigned (ih hafter)
  | mul _ _ iha ihb => exact .mul (iha id) (ihb hafter)
  | div _ _ iha ihb => exact .div (iha id) (ihb hafter)
  | juxtapose _ hx _ iha ihb => exact .juxtapose (iha id) hx (ihb hafter)
  | plus _ ih => exact .plus (ih hafter)
  | minus _ ih => exact .minus (ih hafter)
  | ofPower _ ih => exact .ofPower (ih hafter)
  | ofAtom _ ih => exact .ofAtom (ih hafter)
  | pow _ _ iha ihb => exact .pow (iha id) (ihb hafter)
  | number v => exact .number v
  | pi => exact .pi
  | parens _ ih => exact .parens (ih id)
  | call hf _ ih => exact .call hf (ih id)
  | word letters h => exact .word letters fun hparen => h (hafter hparen)

/-- Only the first token behind a phrase counts. -/
theorem Derives.behind {t : Parameter.Table} {k : Phrase} {u after after' : List Token} {a : Expr}
    {x : Token} (h : Derives t k u (x :: after) a) :
    Derives t k u (x :: after') a := h.congr_after id

/-- An atom is a phrase of every looser kind, up to conditions. -/
theorem Derives.conditions_of_atom {t : Parameter.Table} {u after : List Token} {a : Expr}
    (h : Derives t .atom u after a) : Derives t .conditions u after a :=
  .ofChain (.ofSum (.ofProduct (.ofSigned (.ofPower (.ofAtom h)))))

/-! ### Tokens in a phrase -/

/-- Where a token stands in a list that has another one in it. -/
theorem append_cons_cases {α : Type} {u v p q : List α} {x y : α} (h : u ++ x :: v = p ++ y :: q) :
    (∃ r, u = p ++ y :: r ∧ q = r ++ x :: v) ∨ (p = u ∧ x = y ∧ v = q) ∨
      ∃ r, p = u ++ x :: r ∧ v = r ++ y :: q := by
  rcases List.append_eq_append_iff.mp h with ⟨r, hp, hv⟩ | ⟨r, hu, hq⟩
  · cases r with
    | nil => exact .inr (.inl ⟨by simpa using hp, (List.cons.inj hv).1, (List.cons.inj hv).2⟩)
    | cons x' r =>
      obtain ⟨rfl, rfl⟩ := List.cons.inj hv
      exact .inr (.inr ⟨r, hp, rfl⟩)
  · cases r with
    | nil =>
      obtain ⟨rfl, rfl⟩ := List.cons.inj hq
      exact .inr (.inl ⟨by simpa using hu.symm, rfl, rfl⟩)
    | cons y' r =>
      obtain ⟨rfl, rfl⟩ := List.cons.inj hq
      exact .inl ⟨r, hu, rfl⟩

/-- A token stands behind the first one, if it is not the first one. -/
theorem exists_of_cons {α : Type} {u p q : List α} {x y : α} (h : x :: u = p ++ y :: q)
    (hne : x ≠ y) : ∃ p', p = x :: p' ∧ u = p' ++ y :: q := by
  cases p with
  | nil => exact absurd (List.cons.inj h).1 hne
  | cons x' p =>
    obtain ⟨rfl, hu⟩ := List.cons.inj h
    exact ⟨p, rfl, hu⟩

end Expr

end CurvePlot
