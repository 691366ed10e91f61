import CurvePlot.Proofs.Expr.Soundness
/-!
# Reading is deriving

`Expr.parse` reads exactly what the grammar derives, and reads it as the one tree that
the grammar derives for it. One half is `Soundness`.

The other half is an induction on derivations. A derivation may stop anywhere, but a
reader reads as far as it can, so the two agree only where the token behind the phrase
binds no tighter than the phrase holds together (`bondOf`, `Phrase.strength`). Then
every rule of the grammar is a step of the readers (`Reads`).
-/

namespace CurvePlot

/-- How tightly a token binds what stands behind it to what stands before it. -/
def Token.bond : Token → Nat
  | rightParen => 0
  | connective _ => 1
  | comparison _ => 2
  | plus | minus => 3
  | star | slash | number _ | word _ | pi | leftParen => 4
  | caret => 5

/-- How tightly a phrase holds together: a token that binds no tighter draws nothing
out of it. -/
def Phrase.strength : Phrase → Nat
  | conditions | chain => 1
  | links _ => 2
  | sum => 3
  | product | signed | power => 4
  | atom => 5

namespace Expr

open Reader

/-- How tightly the first token binds; the end does not bind at all. -/
def bondOf : List Placed → Nat
  | [] => 0
  | p :: _ => p.1.bond

section Completeness

variable {t : Parameter.Table}

/-- What the reader of a kind does at a phrase of this kind. One that reads on from
the left comes to the point where it has read the phrase and looks for more. -/
def Reads (t : Parameter.Table) (us rest : List Placed) (e : Expr) : Phrase → Prop
  | .conditions => outcome (conditions t (us ++ rest)) = outcome (conditionsTail t e rest)
  | .chain => outcome (chain t (us ++ rest)) = .ok (e, rest)
  | .links last => outcome (chain t (us ++ rest)) = outcome (chainTail t (some e) last rest)
  | .sum => outcome (sum t (us ++ rest)) = outcome (sumTail t e rest)
  | .product => outcome (product t (us ++ rest)) = outcome (productTail t e rest)
  | .signed => outcome (signed t (us ++ rest)) = .ok (e, rest)
  | .power => outcome (power t (us ++ rest)) = .ok (e, rest)
  | .atom => outcome (atom t (us ++ rest)) = .ok (e, rest)

/-- Conditions are over where nothing binds at all or a closing parenthesis follows, -/
theorem conditionsTail_done {rest : List Placed} (h : bondOf rest < 1) (e : Expr) :
    outcome (conditionsTail t e rest) = .ok (e, rest) := by
  refine conditionsTail_stop t e rest ?_
  rintro op i more rfl
  simp [bondOf, Token.bond] at h

/-- a chain where a connective may follow too, -/
theorem chainTail_done {rest : List Placed} (h : bondOf rest < 2) (links : Option Expr) (e : Expr) :
    outcome (chainTail t links e rest) = .ok (links.getD e, rest) := by
  refine chainTail_stop t e rest links ?_
  rintro op i more rfl
  simp [bondOf, Token.bond] at h

/-- a sum where a comparison may, -/
theorem sumTail_done {rest : List Placed} (h : bondOf rest < 3) (e : Expr) :
    outcome (sumTail t e rest) = .ok (e, rest) := by
  refine sumTail_stop t e rest ?_ ?_
  · rintro i more rfl
    simp [bondOf, Token.bond] at h
  · rintro i more rfl
    simp [bondOf, Token.bond] at h

/-- a product where a sign may, -/
theorem productTail_done {rest : List Placed} (h : bondOf rest < 4) (e : Expr) :
    outcome (productTail t e rest) = .ok (e, rest) := by
  refine productTail_stop t e rest ?_ ?_ ?_
  · rintro i more rfl
    simp [bondOf, Token.bond] at h
  · rintro i more rfl
    simp [bondOf, Token.bond] at h
  · rintro ⟨x, i⟩ more rfl
    cases x <;> simp [bondOf, Token.bond, beginsFactor] at h ⊢

/-- and an atom is not raised unless a caret follows. -/
theorem raised_done {rest : List Placed} (h : bondOf rest < 5) (e : Expr) :
    raised t (e, rest) = .ok (e, rest) := by
  refine raised_stop t ?_
  rintro i more heq
  obtain rfl : rest = _ := heq
  simp [bondOf, Token.bond] at h

/-! ### One rule at a time -/

section Rules

variable {us vs rest : List Placed} {a b : Expr} {i : Nat}

/-- A chain is a condition, and what follows is for the reader of conditions. -/
theorem reads_ofChain (ha : Reads t us rest a .chain) : Reads t us rest a .conditions := by
  simp only [Reads] at ha ⊢
  rw [conditions_eq, ha, ok_bind]

/-- What is joined by a connective is read up to it, and then behind it. -/
theorem reads_join (op : Connective)
    (ha : Reads t us ((.connective op, i) :: (vs ++ rest)) a .conditions)
    (hb : Reads t vs rest b .chain) :
    Reads t (us ++ (.connective op, i) :: vs) rest (.logical op a b) .conditions := by
  simp only [Reads] at ha hb ⊢
  rw [List.append_assoc, List.cons_append, ha, conditionsTail_connective, hb, ok_bind]

/-- A sum without comparison behind it is a chain, -/
theorem reads_ofSum (hr : bondOf rest ≤ 1) (ha : Reads t us rest a .sum) :
    Reads t us rest a .chain := by
  simp only [Reads] at ha ⊢
  -- what binds so little behind the sum is neither a sign nor a comparison
  have hlinks : bondOf rest < 2 := by omega
  rw [chain_eq, ha, sumTail_done (by omega), ok_bind, chainTail_done hlinks]
  rfl

/-- and so are links that are over. -/
theorem reads_ofLinks {last : Expr} (hr : bondOf rest ≤ 1) (ha : Reads t us rest a (.links last)) :
    Reads t us rest a .chain := by
  simp only [Reads] at ha ⊢
  rw [ha, chainTail_done (by omega)]
  rfl

/-- The first comparison of a chain stands between two sums. -/
theorem reads_link (op : Comparison) (hr : bondOf rest ≤ 2)
    (ha : Reads t us ((.comparison op, i) :: (vs ++ rest)) a .sum)
    (hb : Reads t vs rest b .sum) :
    Reads t (us ++ (.comparison op, i) :: vs) rest (.compare op a b) (.links b) := by
  simp only [Reads] at ha hb ⊢
  rw [List.append_assoc, List.cons_append, chain_eq, ha,
    sumTail_done (by simp [bondOf, Token.bond]), ok_bind, chainTail_comparison, hb,
    sumTail_done (by omega), ok_bind]
  rfl

/-- Every later one takes the last side of the one before as its left side. -/
theorem reads_moreLinks {last : Expr} (op : Comparison) (hr : bondOf rest ≤ 2)
    (ha : Reads t us ((.comparison op, i) :: (vs ++ rest)) a (.links last))
    (hb : Reads t vs rest b .sum) :
    Reads t (us ++ (.comparison op, i) :: vs) rest (.logical .and a (.compare op last b))
      (.links b) := by
  simp only [Reads] at ha hb ⊢
  rw [List.append_assoc, List.cons_append, ha, chainTail_comparison, hb,
    sumTail_done (by omega), ok_bind]
  rfl

/-- A product is a sum. -/
theorem reads_ofProduct (hr : bondOf rest ≤ 3) (ha : Reads t us rest a .product) :
    Reads t us rest a .sum := by
  simp only [Reads] at ha ⊢
  rw [sum_eq, ha, productTail_done (by omega), ok_bind]

/-- A sum goes on behind a plus, -/
theorem reads_add (hr : bondOf rest ≤ 3) (ha : Reads t us ((.plus, i) :: (vs ++ rest)) a .sum)
    (hb : Reads t vs rest b .product) :
    Reads t (us ++ (.plus, i) :: vs) rest (.binary .add a b) .sum := by
  simp only [Reads] at ha hb ⊢
  rw [List.append_assoc, List.cons_append, ha, sumTail_plus, hb, productTail_done (by omega),
    ok_bind]

/-- and behind a minus. -/
theorem reads_sub (hr : bondOf rest ≤ 3) (ha : Reads t us ((.minus, i) :: (vs ++ rest)) a .sum)
    (hb : Reads t vs rest b .product) :
    Reads t (us ++ (.minus, i) :: vs) rest (.binary .sub a b) .sum := by
  simp only [Reads] at ha hb ⊢
  rw [List.append_assoc, List.cons_append, ha, sumTail_minus, hb, productTail_done (by omega),
    ok_bind]

/-- A signed factor is a product. -/
theorem reads_ofSigned (ha : Reads t us rest a .signed) : Reads t us rest a .product := by
  simp only [Reads] at ha ⊢
  rw [product_eq, ha, ok_bind]

/-- A product goes on behind a star -/
theorem reads_mul (ha : Reads t us ((.star, i) :: (vs ++ rest)) a .product)
    (hb : Reads t vs rest b .signed) :
    Reads t (us ++ (.star, i) :: vs) rest (.binary .mul a b) .product := by
  simp only [Reads] at ha hb ⊢
  rw [List.append_assoc, List.cons_append, ha, productTail_star, hb, ok_bind]

/-- and behind a slash. -/
theorem reads_div (ha : Reads t us ((.slash, i) :: (vs ++ rest)) a .product)
    (hb : Reads t vs rest b .signed) :
    Reads t (us ++ (.slash, i) :: vs) rest (.binary .div a b) .product := by
  simp only [Reads] at ha hb ⊢
  rw [List.append_assoc, List.cons_append, ha, productTail_slash, hb, ok_bind]

/-- It goes on without an operator if the next token begins a factor. -/
theorem reads_juxtapose {x : Token} (hx : beginsFactor x = true)
    (ha : Reads t us ((x, i) :: (vs ++ rest)) a .product)
    (hb : Reads t ((x, i) :: vs) rest b .signed) :
    Reads t (us ++ (x, i) :: vs) rest (.binary .mul a b) .product := by
  simp only [Reads, List.cons_append] at ha hb ⊢
  rw [List.append_assoc, List.cons_append, ha, productTail_juxtapose _ _ _ _ hx, hb, ok_bind]

/-- A plus may stand in front of a factor, -/
theorem reads_plus (ha : Reads t us rest a .signed) :
    Reads t ((.plus, i) :: us) rest a .signed := by
  simp only [Reads] at ha ⊢
  rw [List.cons_append, signed_plus, ha]

/-- and a minus, which negates it. -/
theorem reads_minus (ha : Reads t us rest a .signed) :
    Reads t ((.minus, i) :: us) rest (.neg a) .signed := by
  simp only [Reads] at ha ⊢
  rw [List.cons_append, signed_minus, ha, ok_bind]

/-- A power needs no sign. -/
theorem reads_ofPower {x : Token} (hx : beginsFactor x = true)
    (ha : Reads t ((x, i) :: us) rest a .power) : Reads t ((x, i) :: us) rest a .signed := by
  simp only [Reads] at ha ⊢
  -- what may begin a factor is no sign
  rw [signed_power, ha]
  · intro j more heq
    rw [(Prod.mk.inj (List.cons.inj heq).1).1] at hx
    cases hx
  · intro j more heq
    rw [(Prod.mk.inj (List.cons.inj heq).1).1] at hx
    cases hx

/-- An atom is a power, unless an exponent follows. -/
theorem reads_ofAtom (hr : bondOf rest ≤ 4) (ha : Reads t us rest a .atom) :
    Reads t us rest a .power := by
  simp only [Reads] at ha ⊢
  rw [power_eq, ha, ok_bind, raised_done (by omega)]

/-- An exponent may have a sign, and an exponent of its own. -/
theorem reads_pow (ha : Reads t us ((.caret, i) :: (vs ++ rest)) a .atom)
    (hb : Reads t vs rest b .signed) :
    Reads t (us ++ (.caret, i) :: vs) rest (.binary .pow a b) .power := by
  simp only [Reads] at ha hb ⊢
  rw [List.append_assoc, List.cons_append, power_eq, ha, ok_bind, raised, hb, ok_bind]

/-- In parentheses stand conditions, which the closing one ends. -/
theorem reads_parens {j : Nat} (ha : Reads t us ((.rightParen, j) :: rest) a .conditions) :
    Reads t ((.leftParen, i) :: us ++ [(.rightParen, j)]) rest a .atom := by
  simp only [Reads] at ha ⊢
  rw [List.cons_append, List.cons_append, List.append_assoc, atom_parens]
  -- the parentheses are opened, and what stands in them is read
  show outcome (conditions t (us ++ (.rightParen, j) :: rest)) >>= _ = _
  rw [ha, conditionsTail_done (by simp [bondOf, Token.bond]), ok_bind]
  rfl

/-- An argument is read like what stands in parentheses. -/
theorem reads_call {letters : List Char} {f : Elementary} {j l : Nat}
    (hf : Elementary.ofName? (String.ofList letters) = some f)
    (ha : Reads t us ((.rightParen, j) :: rest) a .conditions) :
    Reads t ((.word letters, l) :: (.leftParen, i) :: us ++ [(.rightParen, j)]) rest (.call f a)
      .atom := by
  simp only [Reads] at ha ⊢
  rw [List.cons_append, List.cons_append, List.cons_append, List.cons_append,
    List.append_assoc, atom_call _ _ _ _ hf]
  show outcome (conditions t (us ++ (.rightParen, j) :: rest)) >>= _ = _
  rw [ha, conditionsTail_done (by simp [bondOf, Token.bond]), ok_bind]
  rfl

end Rules

/-! ### The whole grammar -/

/-- Powers and atoms begin with a token that may begin a factor. -/
theorem Derives.begins {k : Phrase} {u after : List Token} {e : Expr} (h : Derives t k u after e)
    (hk : k = .power ∨ k = .atom) : ∃ x v, u = x :: v ∧ beginsFactor x = true := by
  -- the leftmost part of a power or an atom is a token that begins one
  induction h with
  | number | pi | parens | call | word => exact ⟨_, _, rfl, rfl⟩
  | ofAtom _ ih => exact ih (.inr rfl)
  | pow _ _ ih _ =>
    obtain ⟨x, v, rfl, hx⟩ := ih (.inr rfl)
    exact ⟨x, _, rfl, hx⟩
  | ofChain | join | ofSum | ofLinks | link | moreLinks | ofProduct | add | sub | ofSigned | mul
  | div | juxtapose | plus | minus | ofPower => simp at hk

/-- The first token has a place, and the others have theirs. -/
theorem exists_first {us : List Placed} {v : List Token} {x : Token}
    (h : us.map Prod.fst = x :: v) : ∃ i vs, us = (x, i) :: vs ∧ vs.map Prod.fst = v := by
  obtain ⟨⟨y, i⟩, vs, rfl, rfl, hv⟩ := List.map_eq_cons_iff.mp h
  exact ⟨i, vs, rfl, hv⟩

/-- A token inside has a place, and so has what stands on either side. -/
theorem exists_placed {us : List Placed} {u v : List Token} {x : Token}
    (h : us.map Prod.fst = u ++ x :: v) : ∃ us' i vs, us = us' ++ (x, i) :: vs ∧
      us'.map Prod.fst = u ∧ vs.map Prod.fst = v := by
  obtain ⟨us', vs', rfl, hu, hvs'⟩ := List.map_eq_append_iff.mp h
  obtain ⟨i, vs, rfl, hv⟩ := exists_first hvs'
  exact ⟨us', i, vs, rfl, hu, hv⟩

/-- **What is derived is read,** as far as nothing behind it binds tighter. -/
theorem Derives.reads {k : Phrase} {u after : List Token} {e : Expr} (h : Derives t k u after e)
    {us rest : List Placed} (hspan : us.map Prod.fst = u) (hafter : rest.map Prod.fst = after)
    (hr : bondOf rest ≤ k.strength) : Reads t us rest e k := by
  -- by induction on the derivation, one rule of the grammar after the other
  induction h generalizing us rest with
  | ofChain _ ih => exact reads_ofChain (ih hspan hafter hr)
  | join op _ _ iha ihb =>
    -- behind the left side stands the operator, which binds just as the phrase does
    obtain ⟨us, i, vs, rfl, hu, hv⟩ := exists_placed hspan
    exact reads_join op (iha hu (by simp [hv, hafter]) (Nat.le_refl 1)) (ihb hv hafter hr)
  | ofSum _ ih => exact reads_ofSum hr (ih hspan hafter (Nat.le_trans hr (by decide)))
  | ofLinks _ ih => exact reads_ofLinks hr (ih hspan hafter (Nat.le_trans hr (Nat.le_succ 1)))
  | link op _ _ iha ihb =>
    -- behind the left side stands a comparison, which ends a sum
    obtain ⟨us, i, vs, rfl, hu, hv⟩ := exists_placed hspan
    exact reads_link op hr (iha hu (by simp [hv, hafter]) (Nat.le_succ 2))
      (ihb hv hafter (Nat.le_trans hr (Nat.le_succ 2)))
  | moreLinks op _ _ iha ihb =>
    obtain ⟨us, i, vs, rfl, hu, hv⟩ := exists_placed hspan
    exact reads_moreLinks op hr (iha hu (by simp [hv, hafter]) (Nat.le_refl 2))
      (ihb hv hafter (Nat.le_trans hr (Nat.le_succ 2)))
  | ofProduct _ ih => exact reads_ofProduct hr (ih hspan hafter (Nat.le_trans hr (by decide)))
  | add _ _ iha ihb =>
    obtain ⟨us, i, vs, rfl, hu, hv⟩ := exists_placed hspan
    -- the right side is a product, which nothing as loose as a sign goes on with
    exact reads_add hr (iha hu (by simp [hv, hafter]) (Nat.le_refl 3))
      (ihb hv hafter (Nat.le_trans hr (by decide)))
  | sub _ _ iha ihb =>
    obtain ⟨us, i, vs, rfl, hu, hv⟩ := exists_placed hspan
    exact reads_sub hr (iha hu (by simp [hv, hafter]) (Nat.le_refl 3))
      (ihb hv hafter (Nat.le_trans hr (by decide)))
  | ofSigned _ ih => exact reads_ofSigned (ih hspan hafter hr)
  | mul _ _ iha ihb =>
    obtain ⟨us, i, vs, rfl, hu, hv⟩ := exists_placed hspan
    exact reads_mul (iha hu (by simp [hv, hafter]) (Nat.le_refl 4)) (ihb hv hafter hr)
  | div _ _ iha ihb =>
    obtain ⟨us, i, vs, rfl, hu, hv⟩ := exists_placed hspan
    exact reads_div (iha hu (by simp [hv, hafter]) (Nat.le_refl 4)) (ihb hv hafter hr)
  | @juxtapose u x v after a b _ hx _ iha ihb =>
    obtain ⟨us, i, vs, rfl, hu, hv⟩ := exists_placed hspan
    -- there is no operator, but the first token of the factor binds as one
    have hbond : bondOf ((x, i) :: (vs ++ rest)) ≤ 4 := by
      cases x <;> simp [bondOf, Token.bond, beginsFactor] at hx ⊢
    exact reads_juxtapose hx (iha hu (by simp [hv, hafter]) hbond)
      (ihb (by simp [hv]) hafter hr)
  | plus _ ih =>
    obtain ⟨i, us, rfl, hu⟩ := exists_first hspan
    exact reads_plus (ih hu hafter hr)
  | minus _ ih =>
    obtain ⟨i, us, rfl, hu⟩ := exists_first hspan
    exact reads_minus (ih hu hafter hr)
  | ofPower hpower ih =>
    obtain ⟨x, v, rfl, hx⟩ := hpower.begins (.inl rfl)
    obtain ⟨i, us, rfl, -⟩ := exists_first hspan
    exact reads_ofPower hx (ih hspan hafter hr)
  | ofAtom _ ih => exact reads_ofAtom hr (ih hspan hafter (Nat.le_trans hr (Nat.le_succ 4)))
  | pow _ _ iha ihb =>
    obtain ⟨us, i, vs, rfl, hu, hv⟩ := exists_placed hspan
    -- only an atom may stand before a caret
    exact reads_pow (iha hu (by simp [hv, hafter]) (Nat.le_refl 5)) (ihb hv hafter hr)
  | number v =>
    obtain ⟨i, us, rfl, hu⟩ := exists_first hspan
    obtain rfl := List.map_eq_nil_iff.mp hu
    show outcome (atom t _) = _
    -- a number is an atom of its own
    rw [List.cons_append, List.nil_append, atom]
    rfl
  | pi =>
    obtain ⟨i, us, rfl, hu⟩ := exists_first hspan
    obtain rfl := List.map_eq_nil_iff.mp hu
    show outcome (atom t _) = _
    rw [List.cons_append, List.nil_append, atom]
    rfl
  | parens _ ih =>
    obtain ⟨ys, j, zs, rfl, hys, hzs⟩ := exists_placed hspan
    -- the closing parenthesis is the last token, and the opening one the first
    obtain rfl := List.map_eq_nil_iff.mp hzs
    obtain ⟨i, us, rfl, hu⟩ := exists_first hys
    -- nothing is drawn out of parentheses, as the closing one does not bind at all
    exact reads_parens (ih hu (by simp [hafter]) (Nat.zero_le 1))
  | call hf _ ih =>
    obtain ⟨ys, j, zs, rfl, hys, hzs⟩ := exists_placed hspan
    obtain rfl := List.map_eq_nil_iff.mp hzs
    obtain ⟨l, ys, rfl, hys'⟩ := exists_first hys
    obtain ⟨i, us, rfl, hu⟩ := exists_first hys'
    exact reads_call hf (ih hu (by simp [hafter]) (Nat.zero_le 1))
  | word letters hhead =>
    obtain ⟨i, us, rfl, hu⟩ := exists_first hspan
    obtain rfl := List.map_eq_nil_iff.mp hu
    show outcome (atom t _) = _
    rw [List.cons_append, List.nil_append, atom_word]
    -- what stands behind the word is no opening parenthesis, so it is not called
    rintro j more rfl
    rw [← hafter] at hhead
    exact hhead rfl

end Completeness

/-! ### Parsing -/

/-- Parsing succeeds where conditions are read and nothing is left. -/
theorem parse_eq_ok {t : Parameter.Table} {ts : List Placed} {e : Expr} :
    parse t ts = .ok e ↔ outcome (conditions t ts) = .ok (e, []) := by
  cases ts with
  | nil =>
    -- every reader reads something
    refine ⟨nofun, fun h => ?_⟩
    exact absurd (length_lt_of_outcome h) (Nat.lt_irrefl 0)
  | cons p ts =>
    rw [parse]
    · -- an error stays, and so does a tree with nothing behind it; any token behind it is an error
      rcases conditions t (p :: ts) with _ | ⟨a, _ | ⟨⟨x, i⟩, rest⟩, h⟩
      · simp
      · simp
      · simp
    · simp

/-- **To read a list of tokens is to derive it.** -/
theorem parse_eq_ok_iff (t : Parameter.Table) (ts : List Placed) (e : Expr) :
    parse t ts = .ok e ↔ Derives t .conditions (ts.map Prod.fst) [] e := by
  rw [parse_eq_ok]
  constructor
  · intro h
    obtain ⟨us, hus, hu⟩ :=
      (conditions_and_signed_sound t (ts.length + 1)).1 ts e [] (Nat.lt_succ_self _) h
    rw [List.append_nil] at hus
    exact hus ▸ hu
  · intro h
    have hreads : outcome (conditions t (ts ++ [])) = outcome (conditionsTail t e []) :=
      h.reads rfl rfl (Nat.zero_le 1)
    rw [List.append_nil] at hreads
    rw [hreads, conditionsTail_done (by decide)]

/-- **Reading is deriving, and there is one tree to derive.** For every list of tokens
and every table, an expression is what the list reads as if and only if the grammar
derives it, and the grammar derives no second one. -/
theorem parse_iff_derives (t : Parameter.Table) (ts : List Placed) :
    (∀ e, parse t ts = .ok e ↔ Derives t .conditions (ts.map Prod.fst) [] e) ∧
      ∀ e e', Derives t .conditions (ts.map Prod.fst) [] e →
        Derives t .conditions (ts.map Prod.fst) [] e' → e = e' := by
  refine ⟨parse_eq_ok_iff t ts, fun e e' h h' => ?_⟩
  have hread : parse t ts = .ok e := (parse_eq_ok_iff t ts e).mpr h
  have hread' : parse t ts = .ok e' := (parse_eq_ok_iff t ts e').mpr h'
  exact Except.ok.inj (hread.symm.trans hread')

end Expr

end CurvePlot
