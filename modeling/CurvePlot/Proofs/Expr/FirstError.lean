import CurvePlot.Proofs.Expr.Front
/-!
# The first token that cannot stand where it does

A list of tokens that is no expression is refused at the earliest point: the tokens before
the one that is named can go on to be an expression, and with it they cannot
(`parse_first_error`).

Both halves are read off the `Front`. Tokens behind which a front has been reached can be
completed, so they are extendable. Tokens at which no front is reached stay refused whatever
follows, since the front takes one token at a time. What is left is to see which of its
causes a step gives, and that the open parentheses of the front are the unclosed ones of
the list.
-/

namespace CurvePlot.Expr

open Reader

/-- The positions of the parentheses that the tokens leave open, innermost first, behind
those of `opened`. -/
def enclosing (opened : List Nat) (ts : List Placed) : List Nat :=
  ts.foldl (fun opened p =>
    match p.1 with
    | .leftParen => p.2 :: opened
    | .rightParen => opened.tail
    | _ => opened) opened

/-- **The positions of the parentheses that are not closed,** innermost first. -/
def unclosed (ts : List Placed) : List Nat := enclosing [] ts

/-- **The tokens can go on to be an expression,** wherever the tokens stand by which they
do. -/
def Extendable (t : Parameter.Table) (ts : List Placed) : Prop :=
  ∃ tokens : List Token, ∀ more : List Placed, more.map Prod.fst = tokens →
    ∃ e, parse t (ts ++ more) = .ok e

/-- **No tokens behind these make them an expression.** -/
def Hopeless (t : Parameter.Table) (ts : List Placed) : Prop :=
  ∀ more : List Placed, ∃ e, parse t (ts ++ more) = .error e

/-- **What the tokens are like where reading fails for a cause.** -/
def Located (t : Parameter.Table) (ts : List Placed) : CompileError → Prop
  | .unexpectedToken position found =>
    (∃ (k : Nat) (x : Token), ts[k]? = some (x, position) ∧ found = x.text) ∧
      ∀ k x, ts[k]? = some (x, position) →
        Extendable t (ts.take k) ∧ Hopeless t (ts.take (k + 1))
  | .unknownFunction name =>
    ∃ k letters i j, ts[k]? = some (.word letters, i) ∧ name = String.ofList letters ∧
      Elementary.ofName? name = none ∧ ts[k + 1]? = some (.leftParen, j) ∧
      Extendable t (ts.take (k + 1)) ∧ Hopeless t (ts.take (k + 2))
  | .unexpectedEnd => Extendable t ts
  | .unmatchedParenthesis position =>
    (unclosed ts).head? = some position ∧ (.leftParen, position) ∈ ts ∧
      ∀ more : List Placed, more.map Prod.fst = List.replicate (unclosed ts).length .rightParen →
        ∃ e, parse t (ts ++ more) = .ok e
  -- nothing else is wrong with tokens that there are
  | _ => False

namespace Front

variable {f g : Front} {p : Placed} {ts us : List Placed} {e : CompileError}

/-! ### What goes wrong -/

/-- A token is refused where it stands, or it calls a word that is no function. -/
theorem step_error (h : f.step p = .error e) :
    e = .unexpectedToken p.2 p.1.text ∨
      ∃ letters, f.standing = .word letters ∧ p.1 = .leftParen ∧
        Elementary.ofName? (String.ofList letters) = none ∧
        e = .unknownFunction (String.ofList letters) := by
  obtain ⟨x, i⟩ := p
  obtain ⟨standing, opened⟩ := f
  cases x with
  | number | word | pi | plus | minus => cases h
  | leftParen =>
    cases standing with
    | before | behind => cases h
    | word letters =>
      -- the word is looked up, and only if it is not found the call is refused
      simp only [step] at h
      cases hf : Elementary.ofName? (String.ofList letters) with
      | none =>
        rw [hf] at h
        exact .inr ⟨letters, rfl, rfl, hf, (Except.error.inj h).symm⟩
      | some g =>
        rw [hf] at h
        cases h
  | star | slash | caret | comparison | connective =>
    -- behind an operand these go on, and nowhere else
    simp only [step] at h
    split at h
    · exact .inl (Except.error.inj h).symm
    · cases h
  | rightParen =>
    -- it has to close something, behind an operand
    simp only [step] at h
    split at h
    · exact .inl (Except.error.inj h).symm
    · cases opened with
      | nil => exact .inl (Except.error.inj h).symm
      | cons j opened => cases h

/-- At the end, an operand is missing or a parenthesis is open. -/
theorem finish_error (h : f.finish = .error e) :
    e = .unexpectedEnd ∨
      f.standing ≠ .before ∧ ∃ i opened, f.opened = i :: opened ∧ e = .unmatchedParenthesis i := by
  obtain ⟨standing, opened⟩ := f
  simp only [finish] at h
  split at h
  · exact .inl (Except.error.inj h).symm
  case isFalse hstanding =>
    cases opened with
    | nil => cases h
    | cons i opened => exact .inr ⟨hstanding, i, opened, rfl, (Except.error.inj h).symm⟩

/-- A row of tokens is refused at one of them, before which the others were not. -/
theorem advance_error (h : f.advance ts = .error e) :
    ∃ us p vs g, ts = us ++ p :: vs ∧ f.advance us = .ok g ∧ g.step p = .error e := by
  -- by induction on the tokens, with the front that they go on from
  induction ts generalizing f with
  | nil => cases h
  | cons p ts ih =>
    rw [advance_cons] at h
    -- either this token is refused, or the refusal comes behind it
    cases hstep : f.step p with
    | error e' =>
      rw [hstep] at h
      obtain rfl := Except.error.inj h
      exact ⟨[], p, ts, f, rfl, rfl, hstep⟩
    | ok f' =>
      rw [hstep, ok_bind] at h
      obtain ⟨us, q, vs, g, rfl, hus, hq⟩ := ih h
      refine ⟨p :: us, q, vs, g, rfl, ?_, hq⟩
      rw [advance_cons, hstep, ok_bind, hus]

/-- **A row of tokens goes wrong at a token or at its end.** -/
theorem verdict_error (h : f.verdict ts = .error e) :
    (∃ us p vs g, ts = us ++ p :: vs ∧ f.advance us = .ok g ∧ g.step p = .error e) ∨
      ∃ g, f.advance ts = .ok g ∧ g.finish = .error e := by
  unfold verdict at h
  cases hts : f.advance ts with
  | error e' =>
    rw [hts] at h
    obtain rfl := Except.error.inj h
    exact .inl (advance_error hts)
  | ok g =>
    rw [hts, ok_bind] at h
    exact .inr ⟨g, rfl, h⟩

/-! ### What is at the end, and what is open -/

/-- One more token is one more step. -/
theorem advance_concat (f : Front) (us : List Placed) (p : Placed) :
    f.advance (us ++ [p]) = f.advance us >>= fun g => g.step p := by
  rw [advance_append]
  refine bind_congr_ok fun g _ => ?_
  rw [advance_cons]
  cases g.step p <;> rfl

/-- The letters of a front are those of the token just read. -/
theorem word_of_step {letters : List Char} (h : f.step p = .ok g)
    (hg : g.standing = .word letters) : p.1 = .word letters := by
  obtain ⟨x, i⟩ := p
  cases x with
  | word letters' =>
    rw [← Except.ok.inj h] at hg
    rw [Standing.word.inj hg]
  | _ =>
    simp only [step] at h
    grind

/-- A front that ends in letters has just read them. -/
theorem word_of_advance {letters : List Char} (h : start.advance us = .ok g)
    (hg : g.standing = .word letters) : ∃ ts i, us = ts ++ [(.word letters, i)] := by
  rcases List.eq_nil_or_concat us with rfl | ⟨ts, p, rfl⟩
  · rw [← Except.ok.inj h] at hg
    cases hg
  · rw [List.concat_eq_append, advance_concat] at h
    obtain ⟨f, -, hstep⟩ := bind_eq_ok.mp h
    exact ⟨ts, p.2, by rw [List.concat_eq_append, ← word_of_step hstep hg]⟩

/-- One token opens a parenthesis, closes one or does neither. -/
theorem opened_of_step (h : f.step p = .ok g) : g.opened = enclosing f.opened [p] := by
  obtain ⟨x, i⟩ := p
  cases x <;> simp only [step] at h <;> simp only [enclosing, List.foldl] <;> grind

/-- **The parentheses that are open at a front** are those that its tokens leave open. -/
theorem opened_of_advance (h : f.advance ts = .ok g) : g.opened = enclosing f.opened ts := by
  induction ts generalizing f with
  | nil => rw [← Except.ok.inj h]; rfl
  | cons p ts ih =>
    rw [advance_cons] at h
    obtain ⟨f', hstep, hts⟩ := bind_eq_ok.mp h
    rw [ih hts, opened_of_step hstep]
    rfl

/-! ### Going on -/

/-- Behind an operand, as many closing parentheses are due as are open. -/
theorem verdict_closing (h : f.standing ≠ .before)
    (hts : ts.map Prod.fst = List.replicate f.opened.length .rightParen) :
    f.verdict ts = .ok () := by
  obtain ⟨standing, opened⟩ := f
  dsimp only at h hts
  -- by induction on the parentheses that are open, the innermost first
  induction opened generalizing standing ts with
  | nil =>
    -- nothing is open, and an operand has ended
    obtain rfl := List.map_eq_nil_iff.mp hts
    exact if_neg h
  | cons j opened ih =>
    -- the innermost parenthesis is closed first, and behind it an operand has ended
    obtain ⟨⟨x, i⟩, rest, rfl, rfl, hrest⟩ := List.map_eq_cons_iff.mp hts
    have hstep : step ⟨standing, j :: opened⟩ (.rightParen, i) = .ok ⟨.behind, opened⟩ := if_neg h
    rw [verdict_cons hstep]
    exact ih .behind nofun hrest

/-- The tokens that are still to come. -/
def completion (f : Front) : List Token :=
  let closers := List.replicate f.opened.length .rightParen
  if f.standing = .before then .number 1 :: closers else closers

/-- **A front can always be completed.** -/
theorem verdict_completion (h : ts.map Prod.fst = f.completion) : f.verdict ts = .ok () := by
  unfold completion at h
  split at h
  · -- an operand is due first, and a number is one
    obtain ⟨⟨x, i⟩, rest, rfl, rfl, hrest⟩ := List.map_eq_cons_iff.mp h
    rw [verdict_cons (g := ⟨.behind, f.opened⟩) rfl]
    exact verdict_closing nofun hrest
  case isFalse hstanding => exact verdict_closing hstanding h

end Front

open Front

section

variable {t : Parameter.Table} {ts us : List Placed} {f : Front} {p : Placed} {e : CompileError}

/-- Nothing is wrong with tokens that read as an expression, and only with these. -/
theorem verdict_eq_ok : start.verdict ts = .ok () ↔ ∃ e, parse t ts = .ok e := by
  cases ts with
  | nil => exact ⟨nofun, nofun⟩
  | cons p ts =>
    rw [verdict_eq_parse t (List.cons_ne_nil p ts)]
    cases parse t (p :: ts) <;> simp [Except.map]

/-- Tokens go wrong as the front says. -/
theorem verdict_eq_error (h : ts ≠ []) : start.verdict ts = .error e ↔ parse t ts = .error e := by
  rw [verdict_eq_parse t h]
  cases parse t ts <;> simp [Except.map]

/-- Tokens that lead to a front can go on, by what completes it. -/
theorem extendable_of_advance (h : start.advance us = .ok f) : Extendable t us := by
  refine ⟨f.completion, fun more hmore => verdict_eq_ok.mp ?_⟩
  rw [verdict_append, h, ok_bind]
  exact verdict_completion hmore

/-- What is wrong with a token is wrong whatever follows. -/
theorem hopeless_of_step (h : start.advance us = .ok f) (hp : f.step p = .error e) :
    Hopeless t (us ++ [p]) := by
  intro more
  refine ⟨e, (verdict_eq_error (by simp)).mp ?_⟩
  rw [List.append_assoc, verdict_append, h, ok_bind]
  exact verdict_cons_error hp more

end

/-- A parenthesis that is left open was open before or stands among the tokens. -/
theorem mem_enclosing {opened : List Nat} {ts : List Placed} {i : Nat}
    (h : i ∈ enclosing opened ts) : i ∈ opened ∨ (.leftParen, i) ∈ ts := by
  induction ts generalizing opened with
  | nil => exact .inl h
  | cons p ts ih =>
    obtain ⟨x, j⟩ := p
    cases x with
    | leftParen =>
      rcases ih h with hi | hi
      · rcases List.mem_cons.mp hi with rfl | hi
        · exact .inr List.mem_cons_self
        · exact .inl hi
      · -- it stands further back
        exact .inr (List.mem_cons_of_mem _ hi)
    | rightParen => exact (ih h).imp List.mem_of_mem_tail (List.mem_cons_of_mem _)
    | _ => exact (ih h).imp_right (List.mem_cons_of_mem _)

/-- Places that increase tell the tokens apart. -/
theorem eq_of_place_eq {ts : List Placed} (h : (ts.map Prod.snd).Pairwise (· < ·)) {k l i : Nat}
    {x y : Token} (hk : ts[k]? = some (x, i)) (hl : ts[l]? = some (y, i)) : k = l := by
  have hk' : (ts.map Prod.snd)[k]? = some i := by rw [List.getElem?_map, hk]; rfl
  -- the places of the tokens are all different
  have hl' : (ts.map Prod.snd)[l]? = some i := by rw [List.getElem?_map, hl]; rfl
  have hlt : k < (ts.map Prod.snd).length := (List.getElem?_eq_some_iff.mp hk').1
  exact (List.getElem?_inj hlt (h.imp Nat.ne_of_lt)).mp (hk'.trans hl'.symm)

/-- **The first token that cannot stand where it does is the one that is reported.** For
every table and all tokens whose places increase, reading fails for one of four causes. The
token that is unexpected, and the parenthesis that makes a call of a word that is no
function, are the first behind which the tokens cannot go on to be an expression. At an
unexpected end they still can. So they can at a parenthesis that is not closed, by closing
all that are open, and the one that is reported is the innermost of them. -/
theorem parse_first_error (t : Parameter.Table) {ts : List Placed} {e : CompileError}
    (hne : ts ≠ []) (hplaces : (ts.map Prod.snd).Pairwise (· < ·)) (h : parse t ts = .error e) :
    Located t ts e := by
  rcases verdict_error ((verdict_eq_error hne).mpr h) with
    ⟨us, p, vs, f, rfl, hus, hp⟩ | ⟨f, hts, hend⟩
  · -- the tokens up to the one that is refused reached a front
    have hextendable : Extendable t us := extendable_of_advance hus
    have hhopeless : Hopeless t (us ++ [p]) := hopeless_of_step hus hp
    have hat : (us ++ p :: vs)[us.length]? = some p := by simp
    have htake : (us ++ p :: vs).take us.length = us := List.take_left
    have htake' : (us ++ p :: vs).take (us.length + 1) = us ++ [p] := by
      simp [List.take_append, List.take_of_length_le]
    rcases step_error hp with rfl | ⟨letters, hword, hparen, hunknown, rfl⟩
    · refine ⟨⟨us.length, p.1, hat, rfl⟩, fun k x hk => ?_⟩
      -- only one token stands at the place that is reported
      obtain rfl : k = us.length := eq_of_place_eq hplaces hk hat
      rw [htake, htake']
      exact ⟨hextendable, hhopeless⟩
    · -- the word is the token before the parenthesis
      obtain ⟨ws, i, rfl⟩ := word_of_advance hus hword
      have hlen : (ws ++ [(Token.word letters, i)]).length = ws.length + 1 := by simp
      rw [hlen] at hat htake htake'
      obtain ⟨x, j⟩ := p
      obtain rfl : x = .leftParen := hparen
      refine ⟨ws.length, letters, i, j, by simp, rfl, hunknown, hat, ?_, ?_⟩
      · rw [htake]
        exact hextendable
      · rw [htake']
        exact hhopeless
  · -- all tokens reached a front, so what is missing comes behind them
    rcases finish_error hend with rfl | ⟨hstanding, i, opened, hopened, rfl⟩
    · exact extendable_of_advance hts
    · have hunclosed : f.opened = unclosed ts := opened_of_advance hts
      refine ⟨by rw [← hunclosed, hopened]; rfl, ?_, fun more hmore => verdict_eq_ok.mp ?_⟩
      · have hmem : i ∈ enclosing [] ts := by
          rw [← unclosed, ← hunclosed, hopened]
          exact List.mem_cons_self
        exact (mem_enclosing hmem).resolve_left List.not_mem_nil
      · rw [verdict_append, hts, ok_bind]
        exact verdict_closing hstanding (hunclosed ▸ hmore)

/-- A closing parenthesis behind a letter is reported where nothing is open. -/
theorem parse_first_error_closing :
    parse Parameter.Table.empty [(.word ['x'], 0), (.rightParen, 1)] =
        .error (.unexpectedToken 1 ")") ∧
      Located Parameter.Table.empty [(.word ['x'], 0), (.rightParen, 1)]
        (.unexpectedToken 1 ")") := by
  have hread : parse Parameter.Table.empty [(.word ['x'], 0), (.rightParen, 1)] =
      .error (.unexpectedToken 1 ")") := by
    refine (verdict_eq_error (List.cons_ne_nil _ _)).mp ?_
    rfl
  exact ⟨hread, parse_first_error _ (List.cons_ne_nil _ _) (by decide) hread⟩

end CurvePlot.Expr
