import CurvePlot.Proofs.Expr.Grammar
import CurvePlot.Proofs.Expr.Reader
/-!
# What is read is derived

Soundness goes reader by reader: if the readers of tighter phrases read only what the
grammar derives, so does this one (`sum_sound` from the readers of products, and so
on). The circle is closed by an induction on the number of tokens, as a parenthesis
or a sign stands before a phrase that is as loose or looser.

The readers that group to the left read a first phrase and then go round a loop.
`Round` is what one round has to keep, `Round.loop` what the loop keeps then, and
`Round.sound` what this says about the reader.
-/

namespace CurvePlot.Expr

open Reader

section Soundness

variable {t : Parameter.Table} {n : Nat}

/-- The placed tokens `us` are a phrase of the kind and mean the expression, with the
placed tokens `rest` behind them. -/
def Means (t : Parameter.Table) (k : Phrase) (e : Expr) (us rest : List Placed) : Prop :=
  Derives t k (us.map Prod.fst) (rest.map Prod.fst) e

/-- The reader reads only phrases of the kind, in lists of fewer than `n` tokens. -/
def Sound (t : Parameter.Table) (k : Phrase) (n : Nat)
    (read : List Placed → Except CompileError (Expr × List Placed)) : Prop :=
  ∀ ts e rest, ts.length < n → read ts = .ok (e, rest) → ∃ us, ts = us ++ rest ∧ Means t k e us rest

/-- Behind a token, the tokens are read as before. -/
theorem means_append {k : Phrase} {e : Expr} {us vs rest : List Placed} {x : Token} {i : Nat} :
    Means t k e (us ++ (x, i) :: vs) rest ↔
      Derives t k (us.map Prod.fst ++ x :: vs.map Prod.fst) (rest.map Prod.fst) e := by
  rw [Means, List.map_append, List.map_cons]

/-- In front of a token, the tokens are read as before. -/
theorem means_before {k : Phrase} {e : Expr} {us vs rest : List Placed} {x : Token} {i : Nat} :
    Means t k e us ((x, i) :: (vs ++ rest)) ↔
      Derives t k (us.map Prod.fst) (x :: vs.map Prod.fst ++ rest.map Prod.fst) e := by
  rw [Means, List.map_cons, List.map_append, List.cons_append]

/-- What is read first is a phrase, and the rest goes on from there. -/
theorem Sound.bind {k : Phrase} {read : List Placed → Except CompileError (Expr × List Placed)}
    (hk : Sound t k n read) {ts : List Placed} {r : Expr × List Placed}
    {f : Expr × List Placed → Except CompileError (Expr × List Placed)} (hn : ts.length < n)
    (h : read ts >>= f = .ok r) : ∃ b vs more, ts = vs ++ more ∧
      Means t k b vs more ∧ f (b, more) = .ok r := by
  obtain ⟨⟨b, more⟩, hb, hf⟩ := bind_eq_ok.mp h
  obtain ⟨vs, hvs, hv⟩ := hk ts b more hn hb
  exact ⟨b, vs, more, hvs, hv, hf⟩

/-- A round of a loop either stops or takes some tokens, and what holds of all that
was taken before still holds with them. -/
def Round {σ : Type} (n : Nat)
    (loop : σ → List Placed → Except CompileError (Expr × List Placed)) (final : σ → Expr)
    (Holds : σ → List Placed → List Placed → Prop) : Prop :=
  ∀ s ts r, ts.length < n → loop s ts = .ok r → r = (final s, ts) ∨
    ∃ s' vs more, ts = vs ++ more ∧ vs ≠ [] ∧ loop s' more = .ok r ∧
      ∀ us, Holds s us ts → Holds s' (us ++ vs) more

/-- **Reading on from the left:** what every round keeps holds when the loop stops. -/
theorem Round.loop {σ : Type} {loop : σ → List Placed → Except CompileError (Expr × List Placed)}
    {final : σ → Expr} {Holds : σ → List Placed → List Placed → Prop}
    (hround : Round n loop final Holds) {s : σ} {us ts rest : List Placed} {e : Expr}
    (hn : ts.length < n) (hs : Holds s us ts) (h : loop s ts = .ok (e, rest)) :
    ∃ s' vs, ts = vs ++ rest ∧ Holds s' (us ++ vs) rest ∧ e = final s' := by
  -- a round that does not stop takes tokens, so the recursion is on how many are left
  rcases hround s ts _ hn h with hstop | ⟨s', vs, more, rfl, hvs, h', hkeep⟩
  · -- the loop stops, and what was taken so far holds
    obtain ⟨rfl, rfl⟩ := Prod.mk.inj hstop
    exact ⟨s, [], rfl, by simpa using hs, rfl⟩
  · -- it goes on with fewer tokens
    have hlt : more.length < (vs ++ more).length := by
      have hpos : 0 < vs.length := List.length_pos_iff.mpr hvs
      rw [List.length_append]
      omega
    obtain ⟨s'', ws, rfl, hws, he⟩ := hround.loop (Nat.lt_trans hlt hn) (hkeep us hs) h'
    exact ⟨s'', vs ++ ws, (List.append_assoc _ _ _).symm, by rwa [← List.append_assoc], he⟩
termination_by ts.length

/-- **A reader that goes round a loop is sound** if what every round keeps holds of the
first phrase, and says in the end what the whole phrase means. -/
theorem Round.sound {σ : Type} {k k' : Phrase}
    {first read : List Placed → Except CompileError (Expr × List Placed)}
    {loop : σ → List Placed → Except CompileError (Expr × List Placed)}
    {final : σ → Expr} {Holds : σ → List Placed → List Placed → Prop}
    (hround : Round n loop final Holds) (hk : Sound t k n first) (start : Expr → σ)
    (hread : ∀ ts, read ts = first ts >>= fun p => loop (start p.1) p.2)
    (hstart : ∀ a us more, Means t k a us more → Holds (start a) us more)
    (hfinal : ∀ s us rest, Holds s us rest → Means t k' (final s) us rest) :
    Sound t k' n read := by
  intro ts e rest hn h
  -- the first phrase, and then the loop
  rw [hread] at h
  obtain ⟨a, us, more, rfl, hu, h⟩ := hk.bind hn h
  have hmore : more.length < n := by
    rw [List.length_append] at hn
    omega
  obtain ⟨s, vs, rfl, hv, rfl⟩ := hround.loop hmore (hstart a us more hu) h
  exact ⟨us ++ vs, (List.append_assoc _ _ _).symm, hfinal s (us ++ vs) rest hv⟩

/-- The round of an operator: the operand behind it is read, and the loop goes on. -/
theorem Sound.round {σ : Type} {k : Phrase}
    {read : List Placed → Except CompileError (Expr × List Placed)} (hk : Sound t k n read)
    {loop : σ → List Placed → Except CompileError (Expr × List Placed)}
    {Holds : σ → List Placed → List Placed → Prop} {s : σ} {next : Expr → σ}
    {x : Token} {i : Nat} {ts : List Placed} {r : Expr × List Placed}
    (hn : ((x, i) :: ts).length < n) (h : read ts >>= (fun p => loop (next p.1) p.2) = .ok r)
    (hkeep : ∀ b us vs more, Holds s us ((x, i) :: (vs ++ more)) → Means t k b vs more →
      Holds (next b) (us ++ (x, i) :: vs) more) :
    ∃ s' vs more, (x, i) :: ts = vs ++ more ∧ vs ≠ [] ∧ loop s' more = .ok r ∧
      ∀ us, Holds s us ((x, i) :: ts) → Holds s' (us ++ vs) more := by
  rw [List.length_cons] at hn
  -- the operator is one token, so what is behind it is short enough
  obtain ⟨b, vs, more, rfl, hv, h⟩ := hk.bind (Nat.lt_of_succ_lt hn) h
  refine ⟨next b, (x, i) :: vs, more, rfl, List.cons_ne_nil _ _, h, fun us hu => ?_⟩
  exact hkeep b us vs more hu hv

/-- A round of conditions reads a connective and a chain. -/
theorem conditionsTail_round (hc : Sound t .chain n fun ts => outcome (chain t ts)) :
    Round n (fun lhs ts => outcome (conditionsTail t lhs ts)) (fun lhs => lhs)
      (Means t .conditions) := by
  intro lhs ts r hn h
  dsimp only at h
  by_cases hop : ∃ op i more, ts = (.connective op, i) :: more
  · -- a connective, and a chain behind it
    obtain ⟨op, i, more, rfl⟩ := hop
    rw [conditionsTail_connective] at h
    refine .inr (hc.round hn h fun b us vs more hu hv => ?_)
    exact means_append.mpr (.join op (means_before.mp hu) hv)
  · -- no connective, so the loop stops
    rw [conditionsTail_stop t lhs ts fun op i more heq => hop ⟨op, i, more, heq⟩] at h
    exact .inl (Except.ok.inj h).symm

/-- **Conditions are read soundly** if chains are. -/
theorem conditions_sound (hc : Sound t .chain n fun ts => outcome (chain t ts)) :
    Sound t .conditions n fun ts => outcome (conditions t ts) :=
  (conditionsTail_round hc).sound hc id (conditions_eq t) (fun _ _ _ hu => .ofChain hu)
    fun _ _ _ hv => hv

/-- What a chain has read: a sum as long as there is no link, and then the links. -/
def ChainHolds (t : Parameter.Table) (s : Option Expr × Expr) (us ts : List Placed) : Prop :=
  match s.1 with
  | none => Means t .sum s.2 us ts
  | some a => Means t (.links s.2) a us ts

/-- A round of a chain reads a comparison and a sum. -/
theorem chainTail_round (hs : Sound t .sum n fun ts => outcome (sum t ts)) :
    Round n (fun s ts => outcome (chainTail t s.1 s.2 ts)) (fun s => s.1.getD s.2)
      (ChainHolds t) := by
  rintro ⟨links, lhs⟩ ts r hn h
  dsimp only at h
  by_cases hop : ∃ op i more, ts = (.comparison op, i) :: more
  · obtain ⟨op, i, more, rfl⟩ := hop
    rw [chainTail_comparison] at h
    let next (b : Expr) : Option Expr × Expr := (some (linked links (.compare op lhs b)), b)
    refine .inr (@Sound.round t n _ _ _ hs _ (ChainHolds t) (links, lhs) next _ _ _ _ hn h
      fun b us vs more hu hv => ?_)
    -- the first link turns the sum into a chain, later ones are joined to it
    cases links with
    | none => exact means_append.mpr (.link op (means_before.mp hu) hv)
    | some a => exact means_append.mpr (.moreLinks op (means_before.mp hu) hv)
  · rw [chainTail_stop t lhs ts links fun op i more heq => hop ⟨op, i, more, heq⟩] at h
    exact .inl (Except.ok.inj h).symm

/-- **Chains are read soundly** if sums are. -/
theorem chain_sound (hs : Sound t .sum n fun ts => outcome (sum t ts)) :
    Sound t .chain n fun ts => outcome (chain t ts) := by
  refine (chainTail_round hs).sound hs (fun a => (none, a)) (chain_eq t) (fun _ _ _ hu => hu) ?_
  -- without a link the chain is a sum
  rintro ⟨links, last⟩ us rest hv
  cases links with
  | none => exact .ofSum hv
  | some a => exact .ofLinks hv

/-- A round of a sum reads a sign and a product. -/
theorem sumTail_round (hp : Sound t .product n fun ts => outcome (product t ts)) :
    Round n (fun lhs ts => outcome (sumTail t lhs ts)) (fun lhs => lhs)
      (Means t .sum) := by
  intro lhs ts r hn h
  dsimp only at h
  by_cases hplus : ∃ i more, ts = (.plus, i) :: more
  · obtain ⟨i, more, rfl⟩ := hplus
    rw [sumTail_plus] at h
    refine .inr (hp.round hn h fun b us vs more hu hv => ?_)
    exact means_append.mpr (.add (means_before.mp hu) hv)
  by_cases hminus : ∃ i more, ts = (.minus, i) :: more
  · obtain ⟨i, more, rfl⟩ := hminus
    rw [sumTail_minus] at h
    refine .inr (hp.round hn h fun b us vs more hu hv => ?_)
    exact means_append.mpr (.sub (means_before.mp hu) hv)
  · -- no sign, so the loop stops
    rw [sumTail_stop t lhs ts (fun i more heq => hplus ⟨i, more, heq⟩)
      fun i more heq => hminus ⟨i, more, heq⟩] at h
    exact .inl (Except.ok.inj h).symm

/-- **Sums are read soundly** if products are. -/
theorem sum_sound (hp : Sound t .product n fun ts => outcome (product t ts)) :
    Sound t .sum n fun ts => outcome (sum t ts) :=
  (sumTail_round hp).sound hp id (sum_eq t) (fun _ _ _ hu => .ofProduct hu) fun _ _ _ hv => hv

/-- A round of a product reads a sign and a factor, or a factor at once. -/
theorem productTail_round (hs : Sound t .signed n fun ts => outcome (signed t ts)) :
    Round n (fun lhs ts => outcome (productTail t lhs ts)) (fun lhs => lhs)
      (Means t .product) := by
  intro lhs ts r hn h
  dsimp only at h
  by_cases hstar : ∃ i more, ts = (.star, i) :: more
  · obtain ⟨i, more, rfl⟩ := hstar
    rw [productTail_star] at h
    refine .inr (hs.round hn h fun b us vs more hu hv => ?_)
    exact means_append.mpr (.mul (means_before.mp hu) hv)
  by_cases hslash : ∃ i more, ts = (.slash, i) :: more
  · obtain ⟨i, more, rfl⟩ := hslash
    rw [productTail_slash] at h
    refine .inr (hs.round hn h fun b us vs more hu hv => ?_)
    exact means_append.mpr (.div (means_before.mp hu) hv)
  by_cases hfactor : ∃ x i more, ts = (x, i) :: more ∧ beginsFactor x = true
  · obtain ⟨x, i, more, rfl, hx⟩ := hfactor
    rw [productTail_juxtapose t lhs more i hx] at h
    obtain ⟨b, vs, more', hts, hv, hrest⟩ := hs.bind hn h
    -- the factor is not empty, so it begins with the token that was looked at
    obtain ⟨y, vs, rfl⟩ : ∃ y vs', vs = y :: vs' := by
      refine List.exists_cons_of_ne_nil ?_
      rintro rfl
      exact hv.ne_nil rfl
    obtain ⟨rfl, rfl⟩ := List.cons.inj hts
    refine .inr ⟨_, (x, i) :: vs, more', rfl, by simp, hrest, fun us hu => ?_⟩
    exact means_append.mpr (.juxtapose (means_before.mp hu) hx hv)
  · -- no factor, so the loop stops
    rw [productTail_stop t lhs ts (fun i more heq => hstar ⟨i, more, heq⟩)
      (fun i more heq => hslash ⟨i, more, heq⟩) fun p more heq =>
        Bool.eq_false_iff.mpr fun hx => hfactor ⟨p.1, p.2, more, heq, hx⟩] at h
    exact .inl (Except.ok.inj h).symm

/-- **Products are read soundly** if factors are. -/
theorem product_sound (hs : Sound t .signed n fun ts => outcome (signed t ts)) :
    Sound t .product n fun ts => outcome (product t ts) :=
  (productTail_round hs).sound hs id (product_eq t) (fun _ _ _ hu => .ofSigned hu)
    fun _ _ _ hv => hv

/-- **Factors are read soundly** if powers are, and factors behind a sign. -/
theorem signed_sound (hp : Sound t .power (n + 1) fun ts => outcome (power t ts))
    (hs : Sound t .signed n fun ts => outcome (signed t ts)) :
    Sound t .signed (n + 1) fun ts => outcome (signed t ts) := by
  intro ts e rest hn h
  dsimp only at h
  -- behind a sign the list is shorter, so the bound of one less is enough
  by_cases hplus : ∃ i more, ts = (.plus, i) :: more
  · obtain ⟨i, more, rfl⟩ := hplus
    rw [signed_plus] at h
    rw [List.length_cons] at hn
    obtain ⟨us, rfl, hu⟩ := hs more e rest (by omega) h
    exact ⟨(.plus, i) :: us, rfl, .plus hu⟩
  by_cases hminus : ∃ i more, ts = (.minus, i) :: more
  · obtain ⟨i, more, rfl⟩ := hminus
    rw [signed_minus] at h
    rw [List.length_cons] at hn
    obtain ⟨a, us, more, rfl, hu, h⟩ := hs.bind (by omega) h
    obtain ⟨rfl, rfl⟩ := Prod.mk.inj (Except.ok.inj h)
    exact ⟨(.minus, i) :: us, rfl, .minus hu⟩
  · -- there is no sign, so it is a power
    rw [signed_power t ts (fun i more heq => hplus ⟨i, more, heq⟩)
      fun i more heq => hminus ⟨i, more, heq⟩] at h
    obtain ⟨us, rfl, hu⟩ := hp ts e rest hn h
    exact ⟨us, rfl, .ofPower hu⟩

/-- **Powers are read soundly** if bases are, and exponents. -/
theorem power_sound (ha : Sound t .atom (n + 1) fun ts => outcome (atom t ts))
    (hs : Sound t .signed n fun ts => outcome (signed t ts)) :
    Sound t .power (n + 1) fun ts => outcome (power t ts) := by
  intro ts e rest hn h
  dsimp only at h
  rw [power_eq] at h
  obtain ⟨a, us, more, rfl, hu, h⟩ := ha.bind hn h
  -- the exponent is read behind a base and a caret, so it may have signs of its own
  by_cases hcaret : ∃ i more', more = (.caret, i) :: more'
  · obtain ⟨i, more, rfl⟩ := hcaret
    rw [List.length_append, List.length_cons] at hn
    obtain ⟨b, vs, more, rfl, hv, h⟩ := hs.bind (by omega) h
    obtain ⟨rfl, rfl⟩ := Prod.mk.inj (Except.ok.inj h)
    exact ⟨us ++ (.caret, i) :: vs, by simp, means_append.mpr (.pow (means_before.mp hu) hv)⟩
  · -- there is no caret, so the base is all
    rw [raised_stop t fun i more' heq => hcaret ⟨i, more', heq⟩] at h
    obtain ⟨rfl, rfl⟩ := Prod.mk.inj (Except.ok.inj h)
    exact ⟨us, rfl, .ofAtom hu⟩

/-- **Atoms are read soundly** if the conditions in parentheses are. -/
theorem atom_sound (hc : Sound t .conditions n fun ts => outcome (conditions t ts)) :
    Sound t .atom (n + 1) fun ts => outcome (atom t ts) := by
  rintro (_ | ⟨⟨x, i⟩, more⟩) e rest hn h
  · simp [atom] at h
  dsimp only at h
  rw [List.length_cons] at hn
  -- the first token decides what is read
  cases x with
  | number v =>
    rw [atom] at h
    obtain ⟨rfl, rfl⟩ := Prod.mk.inj (Except.ok.inj h)
    exact ⟨[(.number v, i)], rfl, .number v⟩
  | pi =>
    rw [atom] at h
    obtain ⟨rfl, rfl⟩ := Prod.mk.inj (Except.ok.inj h)
    exact ⟨[(.pi, i)], rfl, .pi⟩
  | leftParen =>
    rw [atom_parens] at h
    obtain ⟨a, us, more, rfl, hu, h⟩ := hc.bind (by omega) h
    obtain ⟨rfl, j, rfl⟩ := (closed_eq_ok _).mp h
    exact ⟨(.leftParen, i) :: us ++ [(.rightParen, j)], by simp, by
      simpa [Means] using Derives.parens hu⟩
  | word letters =>
    -- a word with a parenthesis behind it is a call or nothing
    by_cases hparen : ∃ j more', more = (.leftParen, j) :: more'
    · obtain ⟨j, more, rfl⟩ := hparen
      cases hf : Elementary.ofName? (String.ofList letters) with
      | none => simp [atom, hf] at h
      | some f =>
        rw [atom_call t more j i hf] at h
        rw [List.length_cons] at hn
        obtain ⟨a, us, more, rfl, hu, h⟩ := hc.bind (by omega) h
        obtain ⟨rfl, l, rfl⟩ := (closed_eq_ok _).mp h
        exact ⟨(.word letters, i) :: (.leftParen, j) :: us ++ [(.rightParen, l)], by simp, by
          simpa [Means] using Derives.call hf hu⟩
    · -- no parenthesis follows, so the word stands for itself
      rw [atom_word t more i letters fun j more' heq => hparen ⟨j, more', heq⟩] at h
      obtain ⟨rfl, rfl⟩ := Prod.mk.inj (Except.ok.inj h)
      refine ⟨[(.word letters, i)], rfl, .word letters fun hhead => ?_⟩
      obtain ⟨_, hcons⟩ := List.head?_eq_some_iff.mp hhead
      obtain ⟨p, more', heq, hp, -⟩ := List.map_eq_cons_iff.mp hcons
      exact hparen ⟨p.2, more', by rw [heq, ← hp]⟩
  | plus | minus | star | slash | caret | rightParen | comparison | connective =>
    simp [atom] at h

/-- **What is read is derived,** in lists of any length. -/
theorem conditions_and_signed_sound (t : Parameter.Table) (n : Nat) :
    (Sound t .conditions n fun ts => outcome (conditions t ts)) ∧
      Sound t .signed n fun ts => outcome (signed t ts) := by
  induction n with
  | zero => exact ⟨nofun, nofun⟩
  | succ n ih =>
    -- only parentheses, exponents and signs lead back to looser phrases
    have hpower := power_sound (atom_sound ih.1) ih.2
    have hsigned := signed_sound hpower ih.2
    have hsum := sum_sound (product_sound hsigned)
    exact ⟨conditions_sound (chain_sound hsum), hsigned⟩

end Soundness

end CurvePlot.Expr
