import CurvePlot.Expr.Eval
import CurvePlot.Proofs.Expr.Parentheses
/-!
# Clauses joined by a connective

Conditions may be written one behind the other with `&&` between them. They are not read one by
one then: `&&` and `||` are of one strength and grouped to the left, so the conditions behind the
`&&` are taken apart again, and what stands in front is joined to the first of them only
(`Grafted`). If `a` stands in front of `b || c`, the tree is that of `(a && b) || c`.

So the whole holds if both sides do (`Grafted.holds`), but it may hold without the left one. It
does not if no `||` stands outside the parentheses of the right side (`Derives.exists_grafted`).
-/

namespace CurvePlot.Expr

open Token (Balanced)

variable {t : Parameter.Table} {u v after : List Token} {a b c e : Expr}

/-- A positive number counts as a true condition. -/
def holds (env : Char → Float) (x y : Float) (e : Expr) : Bool :=
  decide ((0.0 : Float) < e.eval env x y)

/-- The expression is a comparison, or joins two others by a connective. -/
def IsCondition : Expr → Prop
  | .compare _ _ _ | .logical _ _ _ => True
  | _ => False

/-- **The tree `e` is that of `b` with `a` joined by `&&` to the first of its conditions.** -/
inductive Grafted (a : Expr) : Expr → Expr → Prop where
  /-- It is joined to what is not taken apart, -/
  | chain (b : Expr) : Grafted a b (.logical .and a b)
  /-- or to what stands before the last connective. -/
  | join (op : Connective) {b c e : Expr} : Grafted a b e →
      Grafted a (.logical op b c) (.logical op e c)

section Values

variable {env : Char → Float} {x y : Float}

/-- As a number, what is true is positive and what is false is not, -/
theorem zero_lt_ofBool (b : Bool) : decide ((0.0 : Float) < Scalar.ofBool b) = b := by
  cases b <;> decide +kernel

/-- and only what is true is one. -/
theorem ofBool_beq_one (b : Bool) : ((Scalar.ofBool b : Float) == 1.0) = b := by
  cases b <;> decide +kernel

/-- A connection holds if the connective says so of its sides, -/
theorem holds_logical (op : Connective) (a b : Expr) :
    (Expr.logical op a b).holds env x y = op.holds (a.holds env x y) (b.holds env x y) :=
  zero_lt_ofBool _

/-- and a comparison if it says so of the values. -/
theorem holds_compare (op : Comparison) (a b : Expr) :
    (Expr.compare op a b).holds env x y = op.holds (a.eval env x y) (b.eval env x y) :=
  zero_lt_ofBool _

/-- A condition is one where it holds. -/
theorem IsCondition.beq_one (h : e.IsCondition) :
    (e.eval env x y == (1.0 : Float)) = e.holds env x y := by
  cases e with
  | compare | logical => exact (ofBool_beq_one _).trans (zero_lt_ofBool _).symm
  | _ => cases h

/-- What was grafted is a condition, whatever it was before. -/
theorem Grafted.isCondition (h : Grafted a b e) : e.IsCondition := by
  cases h <;> trivial

/-- Behind a condition that holds stands what would hold without it. -/
theorem Grafted.holds (h : Grafted a b e) (ha : a.holds env x y = true) :
    e.holds env x y = b.holds env x y := by
  -- by induction along the conditions of the right side, to the first of which the left one is
  -- joined
  induction h with
  | chain b => rw [holds_logical, ha, Connective.holds, Bool.true_and]
  | join op _ ih => rw [holds_logical, holds_logical, ih]

end Values

/-- A token `||` outside all parentheses. -/
def JoinsByOr (ts : List Token) : Prop := ∃ p q, ts = p ++ .connective .or :: q ∧ Balanced p

/-- **Conditions behind `&&` are read as conditions that the left side is grafted to.** If they
have no `||` outside their parentheses, nothing holds where the left side does not. -/
theorem Derives.exists_grafted (h : Derives t .conditions v after b)
    (ha : Derives t .conditions u (.connective .and :: v ++ after) a) :
    ∃ e, Derives t .conditions (u ++ .connective .and :: v) after e ∧ Grafted a b e ∧
      (¬JoinsByOr v → ∀ {env x y}, a.holds env x y = false → e.holds env x y = false) := by
  -- along the conditions of the right side: the left side stands in front of the first one
  generalize hk : Phrase.conditions = k at h
  induction h with
  | @ofChain v after b hb =>
    refine ⟨.logical .and a b, .join .and ha hb, .chain b, fun _ {env x y} hfalse => ?_⟩
    rw [holds_logical, hfalse, Connective.holds, Bool.false_and]
  | @join v w after b c op hb hc ihb _ =>
    obtain ⟨e, he, hgrafted, hfalse⟩ := ihb ha.behind rfl
    refine ⟨.logical op e c, ?_, .join op hgrafted, fun hor {env x y} hleft => ?_⟩
    · -- the connective comes behind both, so the order of the tokens is the same
      rw [← List.cons_append, ← List.append_assoc]
      exact .join op he hc
    · have hfront : ¬JoinsByOr v := by
        rintro ⟨p, q, rfl, hp⟩
        exact hor ⟨p, q ++ .connective op :: w, by rw [List.append_assoc, List.cons_append], hp⟩
      -- an `&&` keeps what does not hold, and an `||` would stand outside the parentheses
      cases op with
      | and => rw [holds_logical, hfalse hfront hleft, Connective.holds, Bool.false_and]
      | or => exact absurd ⟨v, w, rfl, hb.balanced⟩ hor
  | _ => cases hk

/-- **A row of clauses with `&&` between them holds if all of them do,** and only then if no clause
behind the first has an `||` outside its parentheses. -/
theorem exists_conjunction (ha : Derives t .conditions u [] a) (hcondition : a.IsCondition)
    (more : List (List Token × Expr)) (hmore : ∀ p ∈ more, Derives t .conditions p.1 [] p.2) :
    ∃ e, Derives t .conditions (u ++ more.flatMap fun p => .connective .and :: p.1) [] e ∧
      e.IsCondition ∧
      (∀ {env x y}, a.holds env x y = true → (∀ p ∈ more, p.2.holds env x y = true) →
        e.holds env x y = true) ∧
      ((∀ p ∈ more, ¬JoinsByOr p.1) → ∀ {env x y}, e.holds env x y = true →
        a.holds env x y = true ∧ ∀ p ∈ more, p.2.holds env x y = true) := by
  -- the clauses read so far are the left side of the next `&&`
  induction more generalizing u a with
  | nil =>
    refine ⟨a, ?_, hcondition, fun ha _ => ha, fun _ {env x y} ha => ⟨ha, nofun⟩⟩
    rw [List.flatMap_nil, List.append_nil]
    exact ha
  | cons p more ih =>
    obtain ⟨v, b⟩ := p
    have hb : Derives t .conditions v [] b := hmore (v, b) List.mem_cons_self
    obtain ⟨joined, hjoined, hgrafted, hfalse⟩ := hb.exists_grafted (ha.congr_after nofun)
    obtain ⟨e, he, hcondition', hall, honly⟩ := ih hjoined hgrafted.isCondition
      fun p hp => hmore p (List.mem_cons_of_mem _ hp)
    refine ⟨e, ?_, hcondition', fun {env x y} hleft hright => ?_, fun hor {env x y} hholds => ?_⟩
    · -- one clause after the other has been joined
      rw [List.flatMap_cons, ← List.append_assoc]
      exact he
    · -- the first of the clauses behind holds, so the joined one does, and then the others
      have hfirst : b.holds env x y = true := hright (v, b) List.mem_cons_self
      refine hall ?_ fun p hp => hright p (List.mem_cons_of_mem _ hp)
      rw [hgrafted.holds hleft, hfirst]
    · obtain ⟨hboth, hrest⟩ := honly (fun p hp => hor p (List.mem_cons_of_mem _ hp)) hholds
      -- without the left side, nothing of what is joined would hold
      have hleft : a.holds env x y = true := by
        by_contra hnot
        rw [Bool.not_eq_true] at hnot
        rw [hfalse (hor (v, b) List.mem_cons_self) hnot] at hboth
        cases hboth
      rw [hgrafted.holds hleft] at hboth
      exact ⟨hleft, List.forall_mem_cons.mpr ⟨hboth, hrest⟩⟩

end CurvePlot.Expr
