import CurvePlot.Proofs.Expr.Grammar
import CurvePlot.Proofs.Token.Scan
/-!
# Parentheses

In what the grammar derives, parentheses are balanced (`Derives.balanced`), and what
stands between an opening parenthesis and the one that closes it is derived by itself
(`Derives.enclosed`). Whether parentheses are balanced can be told from a text or from its
tokens (`Scans.brackets_eq`).

A row of parentheses is followed by counting how many are open (`Parenthesis.depth?`). There
is no such number once a parenthesis closes that was not opened in the row.
-/

namespace CurvePlot

/-- A parenthesis. -/
inductive Parenthesis where
  | opening
  | closing
deriving DecidableEq

namespace Parenthesis

/-- The parenthesis that a character is. -/
def ofChar? : Char → Option Parenthesis
  | '(' => some opening
  | ')' => some closing
  | _ => none

/-- The parenthesis that a token is. -/
def ofToken? : Token → Option Parenthesis
  | .leftParen => some opening
  | .rightParen => some closing
  | _ => none

/-- How many parentheses are open behind a row of them if `n` are open before it; none if
one closes that is not open. -/
def depth? : Nat → List Parenthesis → Option Nat
  | n, [] => some n
  | n, opening :: rest => depth? (n + 1) rest
  | n + 1, closing :: rest => depth? n rest
  | 0, closing :: _ => none

theorem depth?_append (n : Nat) (u v : List Parenthesis) :
    depth? n (u ++ v) = (depth? n u).bind (depth? · v) := by
  induction u generalizing n with
  | nil => rfl
  | cons b u ih =>
    cases b with
    | opening => exact ih (n + 1)
    | closing =>
      cases n with
      | zero => rfl
      | succ n => exact ih n

/-- With more parentheses open before, as many more are open behind. -/
theorem depth?_add {n m : Nat} {u : List Parenthesis} (h : depth? n u = some m) (k : Nat) :
    depth? (n + k) u = some (m + k) := by
  induction u generalizing n with
  | nil =>
    obtain rfl := Option.some.inj h
    rfl
  | cons b u ih =>
    cases b with
    | opening =>
      have hopen := ih (n := n + 1) h
      rwa [Nat.add_right_comm] at hopen
    | closing =>
      cases n with
      | zero => cases h
      | succ n =>
        rw [Nat.add_right_comm]
        exact ih h

end Parenthesis

open Parenthesis (depth?)

/-- The parentheses among some tokens. -/
def Token.brackets (ts : List Token) : List Parenthesis := ts.filterMap Parenthesis.ofToken?

/-- **A text closes only parentheses of its own:** none that it has not opened before. -/
def ClosesOwn (text : List Char) : Prop :=
  ∃ n, depth? 0 (text.filterMap Parenthesis.ofChar?) = some n

/-- Every parenthesis is closed, and only those that are open. -/
def Token.Balanced (ts : List Token) : Prop := depth? 0 (Token.brackets ts) = some 0

namespace Token

section Balanced

variable {u v p : List Token} {x : Token}

theorem Balanced.append (hu : Balanced u) (hv : Balanced v) : Balanced (u ++ v) := by
  rw [Balanced, brackets, List.filterMap_append, Parenthesis.depth?_append]
  rw [show depth? 0 (u.filterMap Parenthesis.ofToken?) = some 0 from hu]
  exact hv

theorem Balanced.cons (hx : Parenthesis.ofToken? x = none) (hu : Balanced u) :
    Balanced (x :: u) := by
  rw [Balanced, brackets, List.filterMap_cons_none hx]
  exact hu

/-- Behind a pair of parentheses, as many are open as the pair leaves open inside. -/
theorem depth?_pair {n : Nat} (hu : depth? 0 (brackets u) = some n) (k : Nat) :
    depth? k (brackets (.leftParen :: (u ++ .rightParen :: v))) = depth? (k + n) (brackets v) := by
  have hopen : depth? (0 + (k + 1)) (brackets u) = some (n + (k + 1)) :=
    Parenthesis.depth?_add hu (k + 1)
  rw [Nat.zero_add] at hopen
  show depth? (k + 1) ((u ++ Token.rightParen :: v).filterMap Parenthesis.ofToken?) = _
  rw [List.filterMap_append, Parenthesis.depth?_append]
  rw [show depth? (k + 1) (u.filterMap Parenthesis.ofToken?) = some (n + (k + 1)) from hopen]
  rw [Nat.add_comm k n]
  rfl

theorem Balanced.parens (hu : Balanced u) : Balanced (.leftParen :: u ++ [.rightParen]) :=
  depth?_pair hu 0

/-- Behind an opening parenthesis that nothing closes, tokens are not balanced. -/
theorem not_balanced_of_open {n : Nat} (hu : depth? 0 (brackets u) = some n) :
    ¬ Balanced (p ++ .leftParen :: u) := by
  intro h
  rw [Balanced, brackets, List.filterMap_append, Parenthesis.depth?_append,
    Option.bind_eq_some_iff] at h
  obtain ⟨m, -, hm⟩ := h
  have hopen : depth? (0 + (m + 1)) (brackets u) = some (n + (m + 1)) :=
    Parenthesis.depth?_add hu (m + 1)
  rw [Nat.zero_add] at hopen
  have hzero : some (n + (m + 1)) = some 0 := hopen.symm.trans hm
  exact absurd (Option.some.inj hzero) (Nat.succ_ne_zero _)

/-- Balanced tokens are not balanced up to one more closing parenthesis. -/
theorem not_balanced_of_close (hu : Balanced u) : ¬ Balanced (u ++ .rightParen :: v) := by
  intro h
  rw [Balanced, brackets, List.filterMap_append, Parenthesis.depth?_append] at h
  rw [show depth? 0 (u.filterMap Parenthesis.ofToken?) = some 0 from hu] at h
  cases h

/-- A pair of parentheses stands in front of a cut or behind it, if the tokens in front
are balanced. -/
theorem pair_append_cases {w₁ w₂ q : List Token}
    (h : w₁ ++ w₂ = p ++ .leftParen :: (u ++ .rightParen :: q)) (h₁ : Balanced w₁)
    (hu : Balanced u) : (∃ q', w₁ = p ++ .leftParen :: (u ++ .rightParen :: q')) ∨
      ∃ p', w₂ = p' ++ .leftParen :: (u ++ .rightParen :: q) := by
  rcases List.append_eq_append_iff.mp h with ⟨r, -, hw₂⟩ | ⟨r, rfl, hr⟩
  · exact .inr ⟨r, hw₂⟩
  cases r with
  | nil => exact .inr ⟨[], hr.symm⟩
  | cons x r =>
    obtain ⟨rfl, hrest⟩ := List.cons.inj hr
    -- the cut is not inside the pair, which would be open there
    rcases List.append_eq_append_iff.mp hrest with ⟨s, rfl, hs⟩ | ⟨s, rfl, -⟩
    · cases s with
      | nil =>
        rw [List.append_nil] at h₁
        exact absurd h₁ (not_balanced_of_open hu)
      | cons y s =>
        obtain ⟨rfl, -⟩ := List.cons.inj hs
        exact .inl ⟨s, rfl⟩
    · rw [Balanced, brackets, List.filterMap_append, Parenthesis.depth?_append,
        Option.bind_eq_some_iff] at hu
      obtain ⟨n, hn, -⟩ := hu
      exact absurd h₁ (not_balanced_of_open hn)

end Balanced

/-! ### Texts and their tokens -/

/-- A spelling has the parenthesis that its token is, and no others. -/
theorem Spelling.brackets_eq {run : List Char} {x : Token} (h : Spelling run x) :
    run.filterMap Parenthesis.ofChar? = brackets [x] := by
  have hnone {p : Char → Bool} (hopening : p '(' = false) (hclosing : p ')' = false)
      (hrun : ∀ c ∈ run, p c = true) : run.filterMap Parenthesis.ofChar? = [] := by
    refine List.filterMap_eq_nil_iff.mpr fun c hc => ?_
    unfold Parenthesis.ofChar?
    split
    · exact absurd (hrun _ hc) (by rw [hopening]; exact Bool.false_ne_true)
    · exact absurd (hrun _ hc) (by rw [hclosing]; exact Bool.false_ne_true)
    · rfl
  cases h with
  | digits v hrun => exact hnone rfl rfl hrun
  | letters hrun => exact hnone rfl rfl hrun
  | symbol hmem =>
    have hall : ∀ s ∈ symbols, s.1.filterMap Parenthesis.ofChar? = brackets [s.2] := by
      decide
    exact hall (run, x) hmem

/-- **A text and its tokens have the same parentheses.** -/
theorem Scans.brackets_eq {text : List Char} {ts : List Token} (h : Scans text ts) :
    text.filterMap Parenthesis.ofChar? = Token.brackets ts := by
  induction h with
  | nil => rfl
  | @skip c rest ts hc _ ih =>
    have hnone : Parenthesis.ofChar? c = none := by
      unfold Parenthesis.ofChar?
      split
      · cases hc
      · cases hc
      · rfl
    rw [List.filterMap_cons_none hnone, ih]
  | @token c rest x count ts _ hfirst _ ih =>
    obtain ⟨run, behind, htext, rfl, hne, hspelling⟩ := spelling_of_first? hfirst
    have hbehind : rest.drop (run.length - 1) = behind := by
      cases run with
      | nil => exact absurd rfl hne
      | cons d run =>
        obtain ⟨-, rfl⟩ := List.cons.inj htext
        exact List.drop_left
    rw [hbehind] at ih
    rw [htext, List.filterMap_append, hspelling.brackets_eq, ih]
    exact List.filterMap_append.symm

end Token

/-! ### Parentheses in phrases -/

namespace Expr

open Token (Balanced)

variable {t : Parameter.Table} {k : Phrase} {u w after : List Token} {e : Expr}

/-- **What is derived is balanced.** -/
theorem Derives.balanced (h : Derives t k w after e) : Balanced w := by
  induction h with
  | ofChain _ ih | ofSum _ ih | ofLinks _ ih | ofProduct _ ih | ofSigned _ ih | ofPower _ ih
  | ofAtom _ ih => exact ih
  | join op _ _ iha ihb => exact iha.append (ihb.cons rfl)
  | link op _ _ iha ihb | moreLinks op _ _ iha ihb => exact iha.append (ihb.cons rfl)
  | add _ _ iha ihb | sub _ _ iha ihb | mul _ _ iha ihb | div _ _ iha ihb | pow _ _ iha ihb =>
    exact iha.append (ihb.cons rfl)
  | juxtapose _ _ _ iha ihb => exact iha.append ihb
  | plus _ ih | minus _ ih => exact ih.cons rfl
  | number | pi | word => rfl
  | parens _ ih => exact ih.parens
  | call _ _ ih => exact ih.parens.cons rfl

/-- In derived conditions between parentheses, a pair is the outer one or is inside. -/
theorem pair_parens_cases {p q v : List Token}
    (h : .leftParen :: v ++ [.rightParen] = p ++ .leftParen :: (u ++ .rightParen :: q))
    (hv : Balanced v) (hu : Balanced u) :
    u = v ∨ ∃ p' q', v = p' ++ .leftParen :: (u ++ .rightParen :: q') := by
  cases p with
  | nil =>
    -- behind the conditions stands a closing parenthesis, as it does behind the pair
    obtain ⟨-, hrest⟩ := List.cons.inj h
    rcases append_cons_cases hrest with ⟨r, rfl, -⟩ | ⟨rfl, -, -⟩ | ⟨r, -, hnil⟩
    · exact absurd hv (Token.not_balanced_of_close hu)
    · exact .inl rfl
    · simp at hnil
  | cons x p =>
    obtain ⟨-, hrest⟩ := List.cons.inj h
    rcases Token.pair_append_cases hrest hv hu with ⟨q', hq'⟩ | ⟨p', hp'⟩
    · exact .inr ⟨p, q', hq'⟩
    · obtain ⟨_, -, hnil⟩ := exists_of_cons hp' nofun
      simp at hnil

/-- **Between the parentheses of a pair stand conditions,** in phrases of every kind. -/
theorem Derives.enclosed {p q : List Token} (h : Derives t k w after e)
    (hw : w = p ++ .leftParen :: (u ++ .rightParen :: q)) (hu : Balanced u) :
    ∃ a, Derives t .conditions u [] a := by
  -- a pair does not reach over an operator, since its sides are balanced
  have hsides {w₁ w₂ p q : List Token} {x : Token} (h₁ : Balanced w₁)
      (hw : w₁ ++ x :: w₂ = p ++ .leftParen :: (u ++ .rightParen :: q)) (hx : x ≠ .leftParen) :
      (∃ p' q', w₁ = p' ++ .leftParen :: (u ++ .rightParen :: q')) ∨
        ∃ p' q', w₂ = p' ++ .leftParen :: (u ++ .rightParen :: q') := by
    rcases Token.pair_append_cases hw h₁ hu with ⟨q', hq'⟩ | ⟨p', hp'⟩
    · exact .inl ⟨p, q', hq'⟩
    · obtain ⟨p'', -, hp''⟩ := exists_of_cons hp' hx
      exact .inr ⟨p'', q, hp''⟩
  induction h generalizing p q with
  | ofChain _ ih | ofSum _ ih | ofLinks _ ih | ofProduct _ ih | ofSigned _ ih | ofPower _ ih
  | ofAtom _ ih => exact ih hw
  | join op ha _ iha ihb | link op ha _ iha ihb | moreLinks op ha _ iha ihb =>
    rcases hsides ha.balanced hw nofun with ⟨p', q', hp'⟩ | ⟨p', q', hp'⟩
    · exact iha hp'
    · exact ihb hp'
  | add ha _ iha ihb | sub ha _ iha ihb | mul ha _ iha ihb | div ha _ iha ihb
  | pow ha _ iha ihb =>
    rcases hsides ha.balanced hw nofun with ⟨p', q', hp'⟩ | ⟨p', q', hp'⟩
    · exact iha hp'
    · exact ihb hp'
  | juxtapose ha _ _ iha ihb =>
    rcases Token.pair_append_cases hw ha.balanced hu with ⟨q', hq'⟩ | ⟨p', hp'⟩
    · exact iha hq'
    · exact ihb hp'
  | plus _ ih | minus _ ih =>
    obtain ⟨p', -, hp'⟩ := exists_of_cons hw nofun
    exact ih hp'
  | number | pi | word =>
    obtain ⟨p', -, hnil⟩ := exists_of_cons hw nofun
    simp at hnil
  | parens ha ih =>
    rcases pair_parens_cases hw ha.balanced hu with rfl | ⟨p', q', hp'⟩
    · exact ⟨_, ha.congr_after nofun⟩
    · exact ih hp'
  | call _ ha ih =>
    obtain ⟨p', -, hp'⟩ := exists_of_cons hw nofun
    rcases pair_parens_cases hp' ha.balanced hu with rfl | ⟨p'', q', hp''⟩
    · exact ⟨_, ha.congr_after nofun⟩
    · exact ih hp''

end Expr

end CurvePlot
