import CurvePlot.Expr.Eval
/-!
# What an expression mentions

Evaluating an expression is a walk through its tree, so it can find no more than what stands there:
a coordinate that no node of the tree is, or the value of a parameter that no node names, makes no
difference (`eval_congr`). Two runs are compared here, at two points and with two settings of the
parameters, and what they have to share is `Agree`.

That a node stands in a tree is said by a relation of its own (`Within`), and not by a function that
looks for one. `dependsOnY` is such a function, and it finds the second coordinate wherever it stands
(`dependsOnY_iff_within`).
-/

namespace CurvePlot.Expr

variable {a b e : Expr}

/-- The expressions that the outermost node of an expression is applied to. -/
def operands : Expr → List Expr
  | constant _ | x | y | parameter _ => []
  | neg e | call _ e => [e]
  | binary _ a b | compare _ a b | logical _ a b => [a, b]

/-- **The expression stands in another one:** it is that one, or it stands in one of its operands. -/
inductive Within (a : Expr) : Expr → Prop
  | self : Within a a
  | operand {b e : Expr} (hb : b ∈ e.operands) (h : Within a b) : Within a e

/-- A leaf stands in an expression that has operands exactly if it stands in one of them. -/
theorem within_iff (ha : a.operands = []) (he : e.operands ≠ []) :
    Within a e ↔ ∃ b ∈ e.operands, Within a b := by
  constructor
  · intro h
    cases h with
    | self => exact absurd ha he
    | operand hb h => exact ⟨_, hb, h⟩
  · rintro ⟨b, hb, h⟩
    exact .operand hb h

/-- In a leaf nothing stands but the leaf. -/
theorem eq_of_within (he : e.operands = []) (h : Within a e) : a = e := by
  cases h with
  | self => rfl
  | operand hb =>
    rw [he] at hb
    cases hb

section Leaf

variable (ha : a.operands = [])
include ha

/-- A leaf stands in a negation exactly if it stands in what is negated, -/
theorem within_neg : Within a (neg e) ↔ Within a e :=
  (within_iff ha (e := neg e) nofun).trans (by simp [operands])

/-- and in a call exactly if it stands in its argument. -/
theorem within_call (f : Elementary) : Within a (call f e) ↔ Within a e :=
  (within_iff ha (e := call f e) nofun).trans (by simp [operands])

variable {b c : Expr}

/-- It stands in an operation exactly if it stands on one of its sides, -/
theorem within_binary (op : BinaryOp) : Within a (binary op b c) ↔ Within a b ∨ Within a c :=
  (within_iff ha (e := binary op b c) nofun).trans (by simp [operands])

/-- and so it does in a comparison -/
theorem within_compare (op : Comparison) : Within a (compare op b c) ↔ Within a b ∨ Within a c :=
  (within_iff ha (e := compare op b c) nofun).trans (by simp [operands])

/-- and in a connection. -/
theorem within_logical (op : Connective) : Within a (logical op b c) ↔ Within a b ∨ Within a c :=
  (within_iff ha (e := logical op b c) nofun).trans (by simp [operands])

end Leaf

/-- **An expression depends on `y` exactly if `y` stands in it.** -/
theorem dependsOnY_iff_within (e : Expr) : e.dependsOnY = true ↔ Within y e := by
  -- a leaf that is not `y` has nothing else standing in it; the rest goes by the operands
  induction e with
  | y => exact iff_of_true rfl .self
  | constant | x | parameter =>
    exact iff_of_false Bool.false_ne_true fun h => nomatch eq_of_within rfl h
  | neg e ih => exact ih.trans (within_neg rfl).symm
  | call f e ih => exact ih.trans (within_call rfl f).symm
  | binary op a b iha ihb =>
    rw [dependsOnY, Bool.or_eq_true, within_binary rfl, iha, ihb]
  | compare op a b iha ihb =>
    rw [dependsOnY, Bool.or_eq_true, within_compare rfl, iha, ihb]
  | logical op a b iha ihb =>
    rw [dependsOnY, Bool.or_eq_true, within_logical rfl, iha, ihb]

/-! ### Two evaluations -/

section Values

variable {α : Type} [Scalar α] {env env' : Char → α} {x₁ y₁ x₂ y₂ : α}

/-- **Two points and two settings of the parameters agree** on what stands in an expression. -/
structure Agree (e : Expr) (env env' : Char → α) (x₁ y₁ x₂ y₂ : α) : Prop where
  /-- They have one `x`, if `x` stands there, -/
  x_eq : Within x e → x₁ = x₂
  /-- one `y`, if `y` stands there, -/
  y_eq : Within y e → y₁ = y₂
  /-- and one value of each parameter that stands there. -/
  parameter_eq : ∀ name, Within (parameter name) e → env name = env' name

omit [Scalar α] in
/-- What agrees on an expression agrees on its operands. -/
theorem Agree.operand (h : e.Agree env env' x₁ y₁ x₂ y₂) (hb : b ∈ e.operands) :
    b.Agree env env' x₁ y₁ x₂ y₂ where
  x_eq hx := h.x_eq (.operand hb hx)
  y_eq hy := h.y_eq (.operand hb hy)
  parameter_eq name hname := h.parameter_eq name (.operand hb hname)

/-- **The value of an expression depends on nothing but what stands in it.** -/
theorem eval_congr (h : e.Agree env env' x₁ y₁ x₂ y₂) : e.eval env x₁ y₁ = e.eval env' x₂ y₂ := by
  -- by induction on the expression; each operand agrees, since what stands in it stands in all of
  -- it
  induction e with
  | constant v => rfl
  | x => exact h.x_eq .self
  | y => exact h.y_eq .self
  | parameter name => exact h.parameter_eq name .self
  | neg e ih | call f e ih =>
    have he := ih (h.operand List.mem_cons_self)
    rw [eval, eval, he]
  | binary op a b iha ihb | compare op a b iha ihb | logical op a b iha ihb =>
    have ha := iha (h.operand List.mem_cons_self)
    have hb := ihb (h.operand (List.mem_cons_of_mem a List.mem_cons_self))
    rw [eval, eval, ha, hb]

end Values

end CurvePlot.Expr
