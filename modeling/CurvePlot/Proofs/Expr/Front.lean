import CurvePlot.Proofs.Expr.Parse
/-!
# How far a row of tokens has come

The readers are nested seven deep, but whether tokens can go on to be an expression is
decided one token at a time. What counts of the tokens so far is their `Front`: whether an
operand has to come or has ended, and which parentheses are open. `Front.step` takes one
token, and `Front.verdict` says what is wrong with a whole row of them, if anything is.

`verdict_eq_parse` says that the readers find the same faults. The reason is that every
reader begins where an operand has to come and ends where one has ended, with the same
parentheses open (`Watched`), and that it stops only at a token that binds no tighter than
it reads (`bondOf`). So behind the conditions in parentheses there can only be the closing
one or the end.

A front in which nothing has gone wrong can always be completed (`verdict_completion`): an
operand if one has to come, and then a closing parenthesis for each that is open.
-/

namespace CurvePlot.Expr

open Reader

/-- What stands at the end of a row of tokens. -/
inductive Standing where
  /-- An operand has to come. -/
  | before
  /-- An operand has ended. -/
  | behind
  /-- An operand has ended in letters, which a parenthesis behind them makes a call. -/
  | word (letters : List Char)
deriving DecidableEq

/-- **How far a row of tokens has come.** -/
structure Front where
  standing : Standing
  /-- The positions of the parentheses that are open, innermost first. -/
  opened : List Nat

namespace Front

/-- Nothing has been read. -/
def start : Front := ⟨.before, []⟩

/-- The front behind one more token. -/
def step (f : Front) (p : Placed) : Except CompileError Front :=
  match p.1 with
  | .number _ | .pi => .ok { f with standing := .behind }
  | .word letters => .ok { f with standing := .word letters }
  | .leftParen =>
    match f.standing with
    | .word letters =>
      match Elementary.ofName? (String.ofList letters) with
      | none => .error (.unknownFunction (String.ofList letters))
      | some _ => .ok ⟨.before, p.2 :: f.opened⟩
    | _ => .ok ⟨.before, p.2 :: f.opened⟩
  -- these two are signs where an operand has to come
  | .plus | .minus => .ok { f with standing := .before }
  | .star | .slash | .caret | .comparison _ | .connective _ =>
    if f.standing = .before then .error (.unexpectedToken p.2 p.1.text)
    else .ok { f with standing := .before }
  | .rightParen =>
    if f.standing = .before then .error (.unexpectedToken p.2 p.1.text)
    else
      match f.opened with
      | [] => .error (.unexpectedToken p.2 p.1.text)
      | _ :: opened => .ok ⟨.behind, opened⟩

/-- What is wrong if nothing comes any more. -/
def finish (f : Front) : Except CompileError Unit :=
  if f.standing = .before then .error .unexpectedEnd
  else
    match f.opened with
    | [] => .ok ()
    | i :: _ => .error (.unmatchedParenthesis i)

/-- The front behind a row of tokens. -/
def advance (f : Front) (ts : List Placed) : Except CompileError Front := ts.foldlM step f

/-- **What is wrong with a row of tokens,** if anything is. -/
def verdict (f : Front) (ts : List Placed) : Except CompileError Unit := f.advance ts >>= finish

section

variable {f g : Front} {p : Placed} {ts us vs : List Placed} {e : CompileError}

/-- The front goes from token to token. -/
theorem advance_cons (f : Front) (p : Placed) (ts : List Placed) :
    f.advance (p :: ts) = f.step p >>= fun g => g.advance ts :=
  List.foldlM_cons

/-- A row of tokens is taken in two parts. -/
theorem advance_append (f : Front) (us vs : List Placed) :
    f.advance (us ++ vs) = f.advance us >>= fun g => g.advance vs :=
  List.foldlM_append

/-- What is wrong with a row is wrong with its beginning, or with the rest from there. -/
theorem verdict_append (f : Front) (us vs : List Placed) :
    f.verdict (us ++ vs) = f.advance us >>= fun g => g.verdict vs := by
  unfold verdict
  rw [advance_append, bind_assoc]

/-- A token that can be taken is not at fault. -/
theorem verdict_cons (h : f.step p = .ok g) (ts : List Placed) :
    f.verdict (p :: ts) = g.verdict ts := by
  unfold verdict
  rw [advance_cons, h, ok_bind]

/-- A token that cannot be taken is. -/
theorem verdict_cons_error (h : f.step p = .error e) (ts : List Placed) :
    f.verdict (p :: ts) = .error e := by
  unfold verdict
  rw [advance_cons, h]
  rfl

/-- Letters at the end matter to an opening parenthesis only. -/
theorem verdict_word {letters : List Char} {opened : List Nat}
    (h : ∀ i rest, ts ≠ (.leftParen, i) :: rest) :
    verdict ⟨.word letters, opened⟩ ts = verdict ⟨.behind, opened⟩ ts := by
  cases ts with
  | nil => rfl
  | cons p rest =>
    obtain ⟨x, i⟩ := p
    cases x with
    | leftParen => exact absurd rfl (h i rest)
    -- no other token looks at the letters
    | _ => rfl

end

end Front

open Front

/-! ### The readers and the front -/

section Readers

variable {t : Parameter.Table} {n : Nat}

/-- What comes behind a computation matters where it succeeds. -/
theorem bind_congr_ok {α β : Type} {x : Except CompileError α} {f g : α → Except CompileError β}
    (h : ∀ a, x = .ok a → f a = g a) : x >>= f = x >>= g := by
  cases x with
  | error e => rfl
  | ok a => exact h a rfl

/-- **A reader goes from where an operand has to come to where one has ended,** and stops
at a token that binds no tighter than `b`. -/
def WatchedAt (b : Nat) (read : List Placed → Except CompileError (Expr × List Placed))
    (ts : List Placed) : Prop :=
  (∀ opened, verdict ⟨.before, opened⟩ ts = read ts >>= fun r => verdict ⟨.behind, opened⟩ r.2) ∧
    ∀ r, read ts = .ok r → bondOf r.2 ≤ b ∧ r.2.length < ts.length

/-- A reader does so in all lists of fewer than `n` tokens. -/
def Watched (n b : Nat) (read : List Placed → Except CompileError (Expr × List Placed)) : Prop :=
  ∀ ts, ts.length < n → WatchedAt b read ts

/-- The list does not begin with a sign. -/
def Unsigned (ts : List Placed) : Prop :=
  (∀ i rest, ts ≠ (.plus, i) :: rest) ∧ ∀ i rest, ts ≠ (.minus, i) :: rest

/-- A round of a loop stops at a token that binds no tighter than `b`, or leads to where
the next operand has to come. -/
def Turns {σ : Type} (b : Nat) (first : List Placed → Except CompileError (Expr × List Placed))
    (loop : σ → List Placed → Except CompileError (Expr × List Placed)) : Prop :=
  ∀ s ts, bondOf ts ≤ b + 1 → (bondOf ts ≤ b ∧ ∃ e, loop s ts = .ok (e, ts)) ∨
    ∃ (more : List Placed) (next : Expr → σ), more.length ≤ ts.length ∧
      (∀ opened, verdict ⟨.behind, opened⟩ ts = verdict ⟨.before, opened⟩ more) ∧
      loop s ts = first more >>= fun r => loop (next r.1) r.2

/-- What reads on from behind an operand stays behind operands, and stops at a token that
binds no tighter than `b`. -/
def GoesOn (b : Nat) (r : Except CompileError (Expr × List Placed)) (ts : List Placed) : Prop :=
  (∀ opened, verdict ⟨.behind, opened⟩ ts = r >>= fun p => verdict ⟨.behind, opened⟩ p.2) ∧
    ∀ p, r = .ok p → bondOf p.2 ≤ b ∧ p.2.length ≤ ts.length

/-- Where reading stops, nothing is wrong so far. -/
theorem GoesOn.stop {b : Nat} {p : Expr × List Placed} (h : bondOf p.2 ≤ b) :
    GoesOn b (.ok p) p.2 := by
  refine ⟨fun _ => rfl, fun q hq => ?_⟩
  rw [← Except.ok.inj hq]
  exact ⟨h, Nat.le_refl _⟩

/-- **An operand with what is read on from it** is read as an operand is. -/
theorem WatchedAt.bind {b c : Nat} {first : List Placed → Except CompileError (Expr × List Placed)}
    {next : Expr × List Placed → Except CompileError (Expr × List Placed)} {ts : List Placed}
    (hfirst : WatchedAt c first ts) (hnext : ∀ p, first ts = .ok p → GoesOn b (next p) p.2) :
    WatchedAt b (fun ts => first ts >>= next) ts := by
  obtain ⟨hverdict, hshort⟩ := hfirst
  refine ⟨fun opened => ?_, fun q hq => ?_⟩
  · -- what is wrong is found by the first reader, or from where it stopped
    rw [hverdict, bind_assoc]
    exact bind_congr_ok fun p hp => (hnext p hp).1 opened
  · -- the second reader stops for both
    obtain ⟨p, hp, hq⟩ := bind_eq_ok.mp hq
    obtain ⟨hstop, hle⟩ := (hnext p hp).2 q hq
    exact ⟨hstop, Nat.lt_of_le_of_lt hle (hshort p hp).2⟩

/-- To go on behind an operand may be to begin the next one. -/
theorem WatchedAt.goesOn {b : Nat} {read : List Placed → Except CompileError (Expr × List Placed)}
    {ts us : List Placed} (h : WatchedAt b read ts)
    (hverdict : ∀ opened, verdict ⟨.behind, opened⟩ us = verdict ⟨.before, opened⟩ ts)
    (hle : ts.length ≤ us.length) : GoesOn b (read ts) us := by
  refine ⟨fun opened => (hverdict opened).trans (h.1 opened), fun r hr => ?_⟩
  obtain ⟨hstop, hlt⟩ := h.2 r hr
  exact ⟨hstop, Nat.le_trans (Nat.le_of_lt hlt) hle⟩

/-- Another tree for the same tokens makes no difference. -/
theorem WatchedAt.withTree {b : Nat} {read : List Placed → Except CompileError (Expr × List Placed)}
    {ts : List Placed} (h : WatchedAt b read ts) (tree : Expr → Expr) :
    WatchedAt b (fun ts => read ts >>= fun p => .ok (tree p.1, p.2)) ts :=
  h.bind fun p hp => GoesOn.stop (p := (tree p.1, p.2)) (h.2 p hp).1

/-- A sign stands where an operand has to come, and leaves it to come. -/
theorem WatchedAt.sign {b : Nat} {read read' : List Placed → Except CompileError (Expr × List Placed)}
    {p : Placed} {ts : List Placed} (h : WatchedAt b read ts)
    (hstep : ∀ opened, step ⟨.before, opened⟩ p = .ok ⟨.before, opened⟩)
    (hread : read' (p :: ts) = read ts) : WatchedAt b read' (p :: ts) := by
  refine ⟨fun opened => ?_, fun r hr => ?_⟩
  · rw [verdict_cons (hstep opened), hread]
    exact h.1 opened
  · rw [hread] at hr
    obtain ⟨hstop, hlt⟩ := h.2 r hr
    exact ⟨hstop, Nat.lt_succ_of_lt hlt⟩

/-- **Reading on from the left** does not leave the front. -/
theorem Turns.goesOn {σ : Type} {b : Nat}
    {first : List Placed → Except CompileError (Expr × List Placed)}
    {loop : σ → List Placed → Except CompileError (Expr × List Placed)} (hturn : Turns b first loop)
    (hfirst : Watched n (b + 1) first) (s : σ) (ts : List Placed) (hn : ts.length < n)
    (hb : bondOf ts ≤ b + 1) : GoesOn b (loop s ts) ts := by
  rcases hturn s ts hb with ⟨hstop, e, hloop⟩ | ⟨more, next, hmore, hverdict, hloop⟩
  · -- the loop stops here
    rw [hloop]
    exact .stop hstop
  · -- one more operand is read, and the loop goes on
    have hoperand := hfirst more (Nat.lt_of_le_of_lt hmore hn)
    -- every operand takes tokens, so the recursion is on how many are left
    have hround : WatchedAt b (fun ts => first ts >>= fun r => loop (next r.1) r.2) more := by
      refine hoperand.bind fun r hr => ?_
      have hlt : r.2.length < ts.length := Nat.lt_of_lt_of_le (hoperand.2 r hr).2 hmore
      exact hturn.goesOn hfirst (next r.1) r.2 (Nat.lt_trans hlt hn) (hoperand.2 r hr).1
    rw [hloop]
    exact hround.goesOn hverdict hmore
termination_by ts.length

/-- A reader that goes round a loop is watched if its operands are. -/
theorem Turns.watched {σ : Type} {b : Nat}
    {first read : List Placed → Except CompileError (Expr × List Placed)}
    {loop : σ → List Placed → Except CompileError (Expr × List Placed)} (hturn : Turns b first loop)
    (hfirst : Watched n (b + 1) first) (begin : Expr → σ)
    (hread : ∀ ts, read ts = first ts >>= fun r => loop (begin r.1) r.2) : Watched n b read := by
  -- the readers are known by their outcomes only, which is all that is said of them here
  obtain rfl : read = fun ts => first ts >>= fun r => loop (begin r.1) r.2 := funext hread
  intro ts hn
  have hoperand := hfirst ts hn
  refine hoperand.bind fun r hr => ?_
  have hlt : r.2.length < n := Nat.lt_trans (hoperand.2 r hr).2 hn
  exact hturn.goesOn hfirst (begin r.1) r.2 hlt (hoperand.2 r hr).1

/-- **Conditions are joined** by connectives. -/
theorem conditionsTail_turns :
    Turns 0 (fun ts => outcome (chain t ts)) fun lhs ts => outcome (conditionsTail t lhs ts) := by
  intro lhs ts hb
  by_cases hop : ∃ op i more, ts = (.connective op, i) :: more
  · -- the next chain has to come
    obtain ⟨op, i, more, rfl⟩ := hop
    exact .inr ⟨more, _, Nat.le_succ _, fun _ => verdict_cons rfl more,
      conditionsTail_connective t lhs more i op⟩
  · -- behind a chain there is nothing that binds tighter
    have hstop := conditionsTail_stop t lhs ts fun op i more heq => hop ⟨op, i, more, heq⟩
    refine .inl ⟨?_, lhs, hstop⟩
    rcases ts with _ | ⟨⟨x, i⟩, more⟩
    · exact Nat.le_refl 0
    · cases x with
      | connective op => exact absurd ⟨op, i, more, rfl⟩ hop
      | _ => simp [bondOf, Token.bond] at hb ⊢

/-- **Chains are linked** by comparisons. -/
theorem chainTail_turns :
    Turns 1 (fun ts => outcome (sum t ts)) fun (s : Option Expr × Expr) ts =>
      outcome (chainTail t s.1 s.2 ts) := by
  rintro ⟨links, lhs⟩ ts hb
  by_cases hop : ∃ op i more, ts = (.comparison op, i) :: more
  · -- the next side has to come
    obtain ⟨op, i, more, rfl⟩ := hop
    exact .inr ⟨more, fun b => (some (linked links (.compare op lhs b)), b), Nat.le_succ _,
      fun _ => verdict_cons rfl more, chainTail_comparison t lhs more i links op⟩
  · have hstop := chainTail_stop t lhs ts links fun op i more heq => hop ⟨op, i, more, heq⟩
    refine .inl ⟨?_, _, hstop⟩
    rcases ts with _ | ⟨⟨x, i⟩, more⟩
    · exact Nat.zero_le 1
    · cases x with
      | comparison op => exact absurd ⟨op, i, more, rfl⟩ hop
      | _ => simp [bondOf, Token.bond] at hb ⊢

/-- **Sums** go on with signs. -/
theorem sumTail_turns :
    Turns 2 (fun ts => outcome (product t ts)) fun lhs ts => outcome (sumTail t lhs ts) := by
  intro lhs ts hb
  by_cases hplus : ∃ i more, ts = (.plus, i) :: more
  · obtain ⟨i, more, rfl⟩ := hplus
    exact .inr ⟨more, _, Nat.le_succ _, fun _ => verdict_cons rfl more, sumTail_plus t lhs more i⟩
  by_cases hminus : ∃ i more, ts = (.minus, i) :: more
  · obtain ⟨i, more, rfl⟩ := hminus
    exact .inr ⟨more, _, Nat.le_succ _, fun _ => verdict_cons rfl more, sumTail_minus t lhs more i⟩
  · have hstop := sumTail_stop t lhs ts (fun i more heq => hplus ⟨i, more, heq⟩)
      fun i more heq => hminus ⟨i, more, heq⟩
    refine .inl ⟨?_, lhs, hstop⟩
    rcases ts with _ | ⟨⟨x, i⟩, more⟩
    · exact Nat.zero_le 2
    · cases x with
      | plus => exact absurd ⟨i, more, rfl⟩ hplus
      | minus => exact absurd ⟨i, more, rfl⟩ hminus
      | _ => simp [bondOf, Token.bond] at hb ⊢

/-- A factor without a sign stands where it would stand behind a sign. -/
theorem step_of_beginsFactor {x : Token} (hx : beginsFactor x = true) (i : Nat)
    (opened : List Nat) : step ⟨.behind, opened⟩ (x, i) = step ⟨.before, opened⟩ (x, i) := by
  cases x <;> first | rfl | cases hx

/-- **Products** go on with signs, or with the next factor at once. -/
theorem productTail_turns :
    Turns 3 (fun ts => outcome (signed t ts)) fun lhs ts => outcome (productTail t lhs ts) := by
  intro lhs ts hb
  by_cases hstar : ∃ i more, ts = (.star, i) :: more
  · obtain ⟨i, more, rfl⟩ := hstar
    exact .inr ⟨more, _, Nat.le_succ _, fun _ => verdict_cons rfl more,
      productTail_star t lhs more i⟩
  by_cases hslash : ∃ i more, ts = (.slash, i) :: more
  · obtain ⟨i, more, rfl⟩ := hslash
    exact .inr ⟨more, _, Nat.le_succ _, fun _ => verdict_cons rfl more,
      productTail_slash t lhs more i⟩
  by_cases hfactor : ∃ x i more, ts = (x, i) :: more ∧ beginsFactor x = true
  · obtain ⟨x, i, more, rfl, hx⟩ := hfactor
    -- no token is taken between the factors, so the next one begins at the same token
    refine .inr ⟨(x, i) :: more, _, Nat.le_refl _, fun opened => ?_,
      productTail_juxtapose t lhs more i hx⟩
    unfold verdict
    rw [advance_cons, advance_cons, step_of_beginsFactor hx]
  · have hstop := productTail_stop t lhs ts (fun i more heq => hstar ⟨i, more, heq⟩)
      (fun i more heq => hslash ⟨i, more, heq⟩) fun p more heq =>
        Bool.eq_false_iff.mpr fun hx => hfactor ⟨p.1, p.2, more, heq, hx⟩
    refine .inl ⟨?_, lhs, hstop⟩
    rcases ts with _ | ⟨⟨x, i⟩, more⟩
    · exact Nat.zero_le 3
    · -- the reader looked for every token that binds this tightly
      cases x with
      | star => exact absurd ⟨i, more, rfl⟩ hstar
      | slash => exact absurd ⟨i, more, rfl⟩ hslash
      | number | word | pi | leftParen => exact absurd ⟨_, i, more, rfl, rfl⟩ hfactor
      | _ => simp [bondOf, Token.bond] at hb ⊢

/-- No token binds tighter than the caret. -/
theorem bondOf_le (ts : List Placed) : bondOf ts ≤ 5 := by
  rcases ts with _ | ⟨⟨x, i⟩, more⟩
  · exact Nat.zero_le 5
  · cases x <;> simp [bondOf, Token.bond]

/-- The readers of signs hand on what has none. -/
theorem signed_watched
    (hp : ∀ ts, ts.length < n + 1 → Unsigned ts → WatchedAt 4 (fun ts => outcome (power t ts)) ts)
    (hs : Watched n 4 fun ts => outcome (signed t ts)) :
    Watched (n + 1) 4 fun ts => outcome (signed t ts) := by
  intro ts hn
  by_cases hplus : ∃ i more, ts = (.plus, i) :: more
  · -- a sign is taken, and the rest is read in the same way
    obtain ⟨i, more, rfl⟩ := hplus
    exact (hs more (Nat.lt_of_succ_lt_succ hn)).sign (fun _ => rfl) (signed_plus t more i)
  by_cases hminus : ∃ i more, ts = (.minus, i) :: more
  · -- and so is a minus, for which the tree is turned
    obtain ⟨i, more, rfl⟩ := hminus
    exact ((hs more (Nat.lt_of_succ_lt_succ hn)).withTree .neg).sign (fun _ => rfl)
      (signed_minus t more i)
  · -- there is no sign
    have hunsigned : Unsigned ts :=
      ⟨fun i more heq => hplus ⟨i, more, heq⟩, fun i more heq => hminus ⟨i, more, heq⟩⟩
    have hsame : outcome (signed t ts) = outcome (power t ts) :=
      signed_power t ts hunsigned.1 hunsigned.2
    unfold WatchedAt
    dsimp only
    rw [hsame]
    exact hp ts hn hunsigned

/-- A caret is taken by the reader of powers, so none is left behind a power. -/
theorem raised_goesOn (hs : Watched n 4 fun ts => outcome (signed t ts))
    {p : Expr × List Placed} (hn : p.2.length < n + 1) : GoesOn 4 (raised t p) p.2 := by
  obtain ⟨a, rest⟩ := p
  -- the exponent is an operand of its own, with its own signs
  by_cases hcaret : ∃ i more, rest = (.caret, i) :: more
  · obtain ⟨i, more, rfl⟩ := hcaret
    have hexponent := (hs more (Nat.lt_of_succ_lt_succ hn)).withTree (.binary .pow a)
    exact hexponent.goesOn (fun _ => verdict_cons rfl more) (Nat.le_succ _)
  · have hstop : raised t (a, rest) = .ok (a, rest) :=
      raised_stop t fun i more heq => hcaret ⟨i, more, heq⟩
    rw [hstop]
    refine .stop ?_
    rcases rest with _ | ⟨⟨x, i⟩, more⟩
    · exact Nat.zero_le 4
    · cases x with
      | caret => exact absurd ⟨i, more, rfl⟩ hcaret
      | _ => simp [bondOf, Token.bond]

/-- **Powers** are watched if their bases and exponents are. -/
theorem power_watched {ts : List Placed} (hn : ts.length < n + 1)
    (ha : WatchedAt 5 (fun ts => outcome (atom t ts)) ts)
    (hs : Watched n 4 fun ts => outcome (signed t ts)) :
    WatchedAt 4 (fun ts => outcome (power t ts)) ts := by
  have hpower : (fun ts => outcome (power t ts)) = fun ts => outcome (atom t ts) >>= raised t :=
    funext (power_eq t)
  rw [hpower]
  exact ha.bind fun p hp => raised_goesOn hs (Nat.lt_trans (ha.2 p hp).2 hn)

/-- **Behind conditions in parentheses there is the closing one or the end,** and that is
where the front says that they are not closed. -/
theorem verdict_closed {r : Expr × List Placed} (hr : bondOf r.2 ≤ 0) (i : Nat)
    (opened : List Nat) : verdict ⟨.behind, i :: opened⟩ r.2 =
      closed i r >>= fun r' => verdict ⟨.behind, opened⟩ r'.2 := by
  rcases r with ⟨a, _ | ⟨⟨x, j⟩, rest⟩⟩
  · rfl
  · cases x with
    | rightParen => exact verdict_cons rfl rest
    | _ => simp [bondOf, Token.bond] at hr

/-- What is read in parentheses, whatever is made of it. -/
theorem watched_closed (hc : Watched n 0 fun ts => outcome (conditions t ts)) {ts : List Placed}
    (hn : ts.length < n) (i : Nat) (tree : Expr → Expr) :
    (∀ opened, verdict ⟨.before, i :: opened⟩ ts =
      (outcome (conditions t ts) >>= fun r => closed i (tree r.1, r.2)) >>= fun r =>
        verdict ⟨.behind, opened⟩ r.2) ∧
    ∀ r, (outcome (conditions t ts) >>= fun r => closed i (tree r.1, r.2)) = .ok r →
      bondOf r.2 ≤ 5 ∧ r.2.length < ts.length := by
  obtain ⟨hverdict, hshort⟩ := hc ts hn
  refine ⟨fun opened => ?_, fun r' hr' => ⟨bondOf_le _, ?_⟩⟩
  · rw [hverdict, bind_assoc]
    exact bind_congr_ok fun r hr => @verdict_closed (tree r.1, r.2) (hshort r hr).1 i opened
  · obtain ⟨r, hr, hr'⟩ := bind_eq_ok.mp hr'
    obtain ⟨-, j, hrest⟩ := (closed_eq_ok i).mp hr'
    have hlt := (hshort r hr).2
    rw [hrest, List.length_cons] at hlt
    exact Nat.lt_of_succ_lt hlt

/-- **Atoms** are watched if the conditions in parentheses are. -/
theorem atom_watched {ts : List Placed} (hn : ts.length < n + 1) (hts : Unsigned ts)
    (hc : Watched n 0 fun ts => outcome (conditions t ts)) :
    WatchedAt 5 (fun ts => outcome (atom t ts)) ts := by
  refine ⟨fun opened => ?_, fun r hr => ⟨bondOf_le _, length_lt_of_outcome hr⟩⟩
  -- the first token decides what is read
  rcases ts with _ | ⟨⟨x, i⟩, more⟩
  · simp only [atom]
    rfl
  dsimp only
  rw [List.length_cons] at hn
  cases x with
  | number v => rw [atom]; exact verdict_cons rfl more
  | pi => rw [atom]; exact verdict_cons rfl more
  | leftParen =>
    rw [atom_parens, verdict_cons rfl more]
    exact (watched_closed hc (by omega) i id).1 opened
  | word letters =>
    rw [verdict_cons rfl more]
    -- a word with a parenthesis behind it is a call or nothing
    by_cases hparen : ∃ j rest, more = (.leftParen, j) :: rest
    · -- a call needs a function of that name
      obtain ⟨j, rest, rfl⟩ := hparen
      rw [List.length_cons] at hn
      cases hf : Elementary.ofName? (String.ofList letters) with
      | none =>
        have hstep : step ⟨.word letters, opened⟩ (.leftParen, j) =
            .error (.unknownFunction (String.ofList letters)) := by
          simp only [step, hf]
        rw [verdict_cons_error hstep, atom, hf]
        rfl
      | some g =>
        have hstep : step ⟨.word letters, opened⟩ (.leftParen, j) = .ok ⟨.before, j :: opened⟩ := by
          simp only [step, hf]
        rw [verdict_cons hstep, atom_call t rest j i hf]
        exact (watched_closed hc (by omega) j (.call g)).1 opened
    · -- letters that are no call end an operand
      rw [atom_word t more i letters fun j rest heq => hparen ⟨j, rest, heq⟩, ok_bind]
      exact verdict_word fun j rest heq => hparen ⟨j, rest, heq⟩
  | plus => exact absurd rfl (hts.1 i more)
  | minus => exact absurd rfl (hts.2 i more)
  | star | slash | caret | rightParen | comparison | connective =>
    -- what cannot begin an operand is refused by both, at its own place
    simp only [atom]
    rfl

/-- **All readers are watched,** in lists of any length. -/
theorem conditions_and_signed_watched (t : Parameter.Table) (n : Nat) :
    (Watched n 0 fun ts => outcome (conditions t ts)) ∧
      Watched n 4 fun ts => outcome (signed t ts) := by
  induction n with
  | zero => exact ⟨nofun, nofun⟩
  | succ n ih =>
    -- parentheses, exponents and signs take a token before they lead back to looser phrases
    have hsigned : Watched (n + 1) 4 fun ts => outcome (signed t ts) :=
      signed_watched (fun ts hn hts => power_watched hn (atom_watched hn hts ih.1) ih.2) ih.2
    have hproduct : Watched (n + 1) 3 fun ts => outcome (product t ts) :=
      productTail_turns.watched hsigned id (product_eq t)
    have hsum : Watched (n + 1) 2 fun ts => outcome (sum t ts) :=
      sumTail_turns.watched hproduct id (sum_eq t)
    have hchain : Watched (n + 1) 1 fun ts => outcome (chain t ts) :=
      chainTail_turns.watched hsum (fun e => (none, e)) (chain_eq t)
    exact ⟨conditionsTail_turns.watched hchain id (conditions_eq t), hsigned⟩

/-- **Reading finds what is wrong where the front does.** -/
theorem verdict_eq_parse (t : Parameter.Table) {ts : List Placed} (h : ts ≠ []) :
    start.verdict ts = (parse t ts).map fun _ => () := by
  obtain ⟨hverdict, hshort⟩ :=
    (conditions_and_signed_watched t (ts.length + 1)).1 ts (Nat.lt_succ_self _)
  dsimp only at hverdict hshort
  rw [start, hverdict, parse]
  · rcases hread : conditions t ts with e | ⟨a, _ | ⟨⟨x, i⟩, rest⟩, hlt⟩
    · -- the tokens end with the conditions
      rfl
    · rfl
    · -- only a closing parenthesis can be left behind conditions
      have hbond := (hshort (a, (x, i) :: rest) (by rw [hread]; rfl)).1
      cases x with
      | rightParen => rfl
      | _ => simp [bondOf, Token.bond] at hbond
  · exact h

end Readers

end CurvePlot.Expr
