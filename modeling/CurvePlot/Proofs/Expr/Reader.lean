import CurvePlot.Expr.Parse
/-!
# How the readers go on

A reader returns its tree and the tokens behind it together with a bound on their
number, which only serves to show that reading ends. `Reader.outcome` forgets the
bound. Each reader is then described by how it hands on to the readers of tighter
phrases: one equation for every way in which it may go on, and one for stopping.
-/

namespace CurvePlot.Expr.Reader

/-- What a reader has read and what it has left, or why it could not. -/
def outcome {n : Nat} (r : Except CompileError (Parsed n)) :
    Except CompileError (Expr × List Placed) :=
  r.map fun p => (p.tree, p.rest)

section

variable {n m : Nat}

/-- An error stays what it is. -/
@[simp]
theorem outcome_error (e : CompileError) :
    outcome (.error e : Except CompileError (Parsed n)) = .error e := rfl

/-- Of what was read, the tree and the rest are kept. -/
@[simp]
theorem outcome_ok (p : Parsed n) : outcome (.ok p) = .ok (p.tree, p.rest) := rfl

/-- Something has been read. -/
theorem length_lt_of_outcome {r : Except CompileError (Parsed n)} {e : Expr} {rest : List Placed}
    (h : outcome r = .ok (e, rest)) : rest.length < n := by
  cases r with
  | error _ => cases h
  | ok p =>
    obtain ⟨-, rfl⟩ := Prod.mk.inj (Except.ok.inj h)
    exact p.shorter

/-- One step after another succeeds exactly if both do. -/
theorem bind_eq_ok {α β : Type} {x : Except CompileError α} {f : α → Except CompileError β}
    {b : β} : (x >>= f) = .ok b ↔ ∃ a, x = .ok a ∧ f a = .ok b := by
  cases x <;> simp [bind, Except.bind]

/-- What was read is handed on. -/
theorem ok_bind {α β : Type} (a : α) (f : α → Except CompileError β) :
    ((.ok a : Except CompileError α) >>= f) = f a := rfl

/-- A weaker bound does not change the tree, -/
@[simp]
theorem tree_weaken (p : Parsed m) (h : m ≤ n) : (p.weaken h).tree = p.tree := rfl

/-- nor what is left. -/
@[simp]
theorem rest_weaken (p : Parsed m) (h : m ≤ n) : (p.weaken h).rest = p.rest := rfl

end

/-- What was read in parentheses, with the closing one behind it taken. -/
def closed (opened : Nat) : Expr × List Placed → Except CompileError (Expr × List Placed)
  | (a, (.rightParen, _) :: rest) => .ok (a, rest)
  | _ => .error (.unmatchedParenthesis opened)

/-- What was read as a base, with the exponent behind it. -/
def raised (t : Parameter.Table) : Expr × List Placed → Except CompileError (Expr × List Placed)
  | (a, (.caret, _) :: rest) =>
    outcome (signed t rest) >>= fun p => .ok (.binary .pow a p.1, p.2)
  | p => .ok p

variable (t : Parameter.Table) (lhs : Expr) (ts : List Placed) (i : Nat)

/-! ### Conditions and chains -/

/-- Conditions begin with a chain, and the connectives come behind. -/
theorem conditions_eq : outcome (conditions t ts) =
    outcome (chain t ts) >>= fun p => outcome (conditionsTail t p.1 p.2) := by
  rw [conditions]
  cases chain t ts with
  | error e => rfl
  | ok a =>
    -- the two sides differ in the bound that is noted, and `outcome` forgets it
    simp only [outcome_ok, bind, Except.bind]
    cases conditionsTail t a.tree a.rest <;> rfl

/-- A connective joins the conditions before to the chain behind it. -/
theorem conditionsTail_connective (op : Connective) :
    outcome (conditionsTail t lhs ((.connective op, i) :: ts)) =
      outcome (chain t ts) >>= fun p => outcome (conditionsTail t (.logical op lhs p.1) p.2) := by
  rw [conditionsTail]
  cases chain t ts with
  | error e => rfl
  | ok a =>
    -- as before, only the noted bounds differ
    simp only [outcome_ok, bind, Except.bind]
    cases conditionsTail t (.logical op lhs a.tree) a.rest <;> rfl

/-- Anything else ends the conditions. -/
theorem conditionsTail_stop (h : ∀ op i rest, ts ≠ (.connective op, i) :: rest) :
    outcome (conditionsTail t lhs ts) = .ok (lhs, ts) := by
  rw [conditionsTail]
  · rfl
  · exact h

/-- A chain begins with a sum, and the comparisons come behind. -/
theorem chain_eq : outcome (chain t ts) =
    outcome (sum t ts) >>= fun p => outcome (chainTail t none p.1 p.2) := by
  rw [chain]
  cases sum t ts with
  | error e => rfl
  | ok a =>
    simp only [outcome_ok, bind, Except.bind]
    cases chainTail t none a.tree a.rest <;> rfl

/-- The links before, with one more. -/
def linked (links : Option Expr) (link : Expr) : Expr :=
  match links with
  | some before => .logical .and before link
  | none => link

/-- A comparison adds a link to the chain, whose right side stays for the next one. -/
theorem chainTail_comparison (links : Option Expr) (op : Comparison) :
    outcome (chainTail t links lhs ((.comparison op, i) :: ts)) =
      outcome (sum t ts) >>= fun p =>
        outcome (chainTail t (some (linked links (.compare op lhs p.1))) p.1 p.2) := by
  rw [chainTail]
  cases sum t ts with
  | error e => rfl
  | ok a =>
    -- the loop joins the links itself, which `linked` only repeats case by case
    cases links with
    | none =>
      simp only [outcome_ok, bind, Except.bind, linked]
      cases chainTail t (some (.compare op lhs a.tree)) a.tree a.rest <;> rfl
    | some before =>
      simp only [outcome_ok, bind, Except.bind, linked]
      cases chainTail t (some (.logical .and before (.compare op lhs a.tree))) a.tree a.rest <;>
        rfl

/-- Anything else ends the chain. -/
theorem chainTail_stop (links : Option Expr) (h : ∀ op i rest, ts ≠ (.comparison op, i) :: rest) :
    outcome (chainTail t links lhs ts) = .ok (links.getD lhs, ts) := by
  rw [chainTail]
  · rfl
  · exact h

/-! ### Sums and products -/

/-- A sum begins with a product, and the signs come behind. -/
theorem sum_eq : outcome (sum t ts) =
    outcome (product t ts) >>= fun p => outcome (sumTail t p.1 p.2) := by
  rw [sum]
  cases product t ts with
  | error e => rfl
  | ok a =>
    simp only [outcome_ok, bind, Except.bind]
    cases sumTail t a.tree a.rest <;> rfl

/-- A plus adds the product behind it to the sum before, -/
theorem sumTail_plus : outcome (sumTail t lhs ((.plus, i) :: ts)) =
    outcome (product t ts) >>= fun p => outcome (sumTail t (.binary .add lhs p.1) p.2) := by
  rw [sumTail]
  cases product t ts with
  | error e => rfl
  | ok a =>
    simp only [outcome_ok, bind, Except.bind]
    cases sumTail t (.binary .add lhs a.tree) a.rest <;> rfl

/-- and a minus subtracts it. -/
theorem sumTail_minus : outcome (sumTail t lhs ((.minus, i) :: ts)) =
    outcome (product t ts) >>= fun p => outcome (sumTail t (.binary .sub lhs p.1) p.2) := by
  rw [sumTail]
  cases product t ts with
  | error e => rfl
  | ok a =>
    simp only [outcome_ok, bind, Except.bind]
    cases sumTail t (.binary .sub lhs a.tree) a.rest <;> rfl

/-- Anything else ends the sum. -/
theorem sumTail_stop (h : ∀ i rest, ts ≠ (.plus, i) :: rest)
    (h' : ∀ i rest, ts ≠ (.minus, i) :: rest) :
    outcome (sumTail t lhs ts) = .ok (lhs, ts) := by
  rw [sumTail]
  · rfl
  · exact h
  · exact h'

/-- A product begins with a signed factor, and the others come behind. -/
theorem product_eq : outcome (product t ts) =
    outcome (signed t ts) >>= fun p => outcome (productTail t p.1 p.2) := by
  rw [product]
  cases signed t ts with
  | error e => rfl
  | ok a =>
    simp only [outcome_ok, bind, Except.bind]
    cases productTail t a.tree a.rest <;> rfl

/-- A star multiplies by the factor behind it, -/
theorem productTail_star : outcome (productTail t lhs ((.star, i) :: ts)) =
    outcome (signed t ts) >>= fun p => outcome (productTail t (.binary .mul lhs p.1) p.2) := by
  rw [productTail]
  cases signed t ts with
  | error e => rfl
  | ok a =>
    simp only [outcome_ok, bind, Except.bind]
    cases productTail t (.binary .mul lhs a.tree) a.rest <;> rfl

/-- and a slash divides by it. -/
theorem productTail_slash : outcome (productTail t lhs ((.slash, i) :: ts)) =
    outcome (signed t ts) >>= fun p => outcome (productTail t (.binary .div lhs p.1) p.2) := by
  rw [productTail]
  cases signed t ts with
  | error e => rfl
  | ok a =>
    simp only [outcome_ok, bind, Except.bind]
    cases productTail t (.binary .div lhs a.tree) a.rest <;> rfl

/-- A token that begins a factor multiplies without a sign. -/
theorem productTail_juxtapose {x : Token} (hx : beginsFactor x = true) :
    outcome (productTail t lhs ((x, i) :: ts)) = outcome (signed t ((x, i) :: ts)) >>= fun p =>
      outcome (productTail t (.binary .mul lhs p.1) p.2) := by
  rw [productTail]
  · -- the token that was looked at is not taken
    rw [if_pos hx]
    cases signed t ((x, i) :: ts) with
    | error e => rfl
    | ok a =>
      simp only [outcome_ok, bind, Except.bind]
      cases productTail t (.binary .mul lhs a.tree) a.rest <;> rfl
  · -- it is neither a star nor a slash, since neither begins a factor
    rintro j h
    rw [(Prod.mk.inj h).1] at hx
    cases hx
  · rintro j h
    rw [(Prod.mk.inj h).1] at hx
    cases hx

/-- Anything else ends the product. -/
theorem productTail_stop (h : ∀ i rest, ts ≠ (.star, i) :: rest)
    (h' : ∀ i rest, ts ≠ (.slash, i) :: rest)
    (h'' : ∀ p rest, ts = p :: rest → beginsFactor p.1 = false) :
    outcome (productTail t lhs ts) = .ok (lhs, ts) := by
  cases ts with
  | nil =>
    -- at the end there is no token
    rw [productTail]
    rfl
  | cons p rest =>
    -- any other token has to be neither of the three
    rw [productTail]
    · rw [if_neg (by simp [h'' p rest rfl])]
      rfl
    · rintro j rfl
      exact h j rest rfl
    · rintro j rfl
      exact h' j rest rfl

/-! ### Signs, powers and atoms -/

/-- A plus in front says nothing, -/
theorem signed_plus : outcome (signed t ((.plus, i) :: ts)) = outcome (signed t ts) := by
  rw [signed]
  cases signed t ts <;> rfl

/-- and a minus negates what follows. -/
theorem signed_minus : outcome (signed t ((.minus, i) :: ts)) =
    outcome (signed t ts) >>= fun p => .ok (.neg p.1, p.2) := by
  rw [signed]
  cases signed t ts <;> rfl

/-- Without a sign in front, a power follows. -/
theorem signed_power (h : ∀ i rest, ts ≠ (.plus, i) :: rest)
    (h' : ∀ i rest, ts ≠ (.minus, i) :: rest) :
    outcome (signed t ts) = outcome (power t ts) := by
  rw [signed]
  · exact h
  · exact h'

/-- A power is an atom, raised if an exponent follows. -/
theorem power_eq : outcome (power t ts) = outcome (atom t ts) >>= raised t := by
  rw [power]
  rcases atom t ts with e | ⟨a, _ | ⟨⟨x, j⟩, rest⟩, h⟩
  · rfl
  · rfl
  · cases x with
    | caret =>
      -- the exponent is a signed factor, so it may have an exponent itself
      simp only [outcome_ok, bind, Except.bind, raised]
      cases signed t rest <;> rfl
    | _ => rfl

/-- Without a caret nothing is raised. -/
theorem raised_stop {p : Expr × List Placed} (h : ∀ i rest, p.2 ≠ (.caret, i) :: rest) :
    raised t p = .ok p := by
  rcases p with ⟨a, _ | ⟨⟨x, j⟩, rest⟩⟩
  · rfl
  · cases x with
    | caret => exact absurd rfl (h j rest)
    | _ => rfl

/-- The closing parenthesis is taken from what was left. -/
theorem outcome_closing {n : Nat} (p : Parsed n) :
    outcome (closing i p) = closed i (p.tree, p.rest) := by
  rcases p with ⟨a, _ | ⟨⟨x, j⟩, rest⟩, h⟩
  · rfl
  · cases x <;> rfl

/-- What was closed is what stood in the parentheses, up to the closing one. -/
theorem closed_eq_ok {a e : Expr} {ts rest : List Placed} :
    closed i (a, ts) = .ok (e, rest) ↔ a = e ∧ ∃ j, ts = (.rightParen, j) :: rest := by
  rcases ts with _ | ⟨⟨x, j⟩, ts⟩
  · simp [closed]
  · cases x <;> simp [closed]

/-- Parentheses hold conditions. -/
theorem atom_parens : outcome (atom t ((.leftParen, i) :: ts)) =
    outcome (conditions t ts) >>= closed i := by
  rw [atom]
  cases conditions t ts with
  | error e => rfl
  | ok a => exact outcome_closing i _

/-- The name of a function is read with the parentheses behind it. -/
theorem atom_call (j : Nat) {letters : List Char} {f : Elementary}
    (hf : Elementary.ofName? (String.ofList letters) = some f) :
    outcome (atom t ((.word letters, j) :: (.leftParen, i) :: ts)) =
      outcome (conditions t ts) >>= fun p => closed i (.call f p.1, p.2) := by
  rw [atom, hf]
  cases conditions t ts with
  | error e => rfl
  | ok a => exact outcome_closing i _

/-- Any other word is read letter by letter. -/
theorem atom_word (letters : List Char) (h : ∀ i rest, ts ≠ (.leftParen, i) :: rest) :
    outcome (atom t ((.word letters, i) :: ts)) = .ok (ofWord t letters, ts) := by
  rw [atom]
  · rfl
  · exact h

end CurvePlot.Expr.Reader
