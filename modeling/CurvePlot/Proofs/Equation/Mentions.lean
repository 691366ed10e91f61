import CurvePlot.Proofs.Equation.Compile
import CurvePlot.Proofs.Equation.Relation
import CurvePlot.Proofs.Expr.Mentions
/-!
# What a graph depends on

The graph of an equation is computed from its two expressions: the height from the one, and from the
other whether the point at this height is in the domain. So it depends on no more than these mention
(`valueAt_congr`). A relation that is solved for `y` is evaluated at two heights, and the restriction
at the height that comes out. Still both runs come by the same heights, one after the other, so they
never differ.

In particular, the graph of a text in which `x` is not mentioned is level (`compile_level`).
-/

namespace CurvePlot

variable {α : Type} [Scalar α] {env env' : Char → α} {x₁ x₂ : α}

namespace Formula

variable {f : Formula}

/-- **Two places and two settings of the parameters agree** on what stands in a formula, at every
height. -/
structure Agree (f : Formula) (env env' : Char → α) (x₁ x₂ : α) : Prop where
  math : ∀ y, f.math.Agree env env' x₁ y x₂ y
  limit : ∀ e, f.limit = some e → ∀ y, e.Agree env env' x₁ y x₂ y

/-- A domain depends on what stands in the restriction. -/
theorem admits_congr (h : f.Agree env env' x₁ x₂) (y : α) :
    f.admits env x₁ y = f.admits env' x₂ y := by
  unfold admits
  cases hlimit : f.limit with
  | none => rfl
  | some e =>
    have he := Expr.eval_congr (h.limit e hlimit y)
    dsimp only
    rw [he]

/-- So does the height at which a formula vanishes, on what stands in its expression. -/
theorem solution_congr (h : f.Agree env env' x₁ x₂) : f.solution env x₁ = f.solution env' x₂ := by
  unfold solution
  rw [Expr.eval_congr (h.math 0.0), Expr.eval_congr (h.math 1.0)]

end Formula

namespace Equation

variable {eq : Equation}

/-- **A graph depends on nothing but what stands in the two expressions.** -/
theorem valueAt_congr (h : eq.formula.Agree env env' x₁ x₂) :
    eq.valueAt env x₁ = eq.valueAt env' x₂ := by
  unfold formula at h
  unfold valueAt
  cases hread : eq.outcome with
  | error e => rfl
  | ok f =>
    rw [hread] at h
    cases eq.classification with
    | implicit | point => rfl
    | explicit =>
      have hheight := Expr.eval_congr (h.math 0.0)
      dsimp only
      rw [hheight, Formula.admits_congr h]
    | linearInY =>
      -- the restriction is asked at the height that the solution has in both runs
      have hheight := Formula.solution_congr h
      dsimp only
      rw [hheight, Formula.admits_congr h]

omit [Scalar α] in
/-- What does not mention `x` agrees at any two places. -/
theorem agree_of_not_within {e : Expr} (hx : ¬ Expr.Within .x e) (env : Char → α) (x₁ x₂ y : α) :
    e.Agree env env x₁ y x₂ y where
  x_eq h := absurd h hx
  y_eq _ := rfl
  parameter_eq _ _ := rfl

/-- The relation `1=y` below the height two, which is solved for `y`. -/
theorem compile_one_below_two :
    let f : Formula := ⟨.binary .sub (.constant 1.0) .y, some (.compare .less .y (.constant 2.0))⟩
    (compile "1=y\x7by<2\x7d" standardProbe).classification = .linearInY ∧
      (compile "1=y\x7by<2\x7d" standardProbe).outcome = .ok f := by
  intro f
  let form : Form := ⟨.relation, Form.difference ['1'] ['y'], some "y<2".toList⟩
  have hone (t : Parameter.Table) : Expr.read t ['1'] = .ok (.constant 1.0) :=
    Expr.read_eq_ok_iff.mpr ⟨[.number 1.0], .token rfl rfl .nil, .conditions_of_atom (.number 1.0)⟩
  have hbound (t : Parameter.Table) :
      Expr.read t "y<2".toList = .ok (.compare .less .y (.constant 2.0)) := by
    have hscans : Token.Scans "y<2".toList [.word ['y'], .comparison .less, .number 2.0] := by
      repeat' first | exact .nil | refine .token rfl rfl ?_
    have hside {token : Token} {a : Expr} {after : List Token}
        (h : Expr.Derives t .atom [token] after a) : Expr.Derives t .sum [token] after a :=
      .ofProduct (.ofSigned (.ofPower (.ofAtom h)))
    have hy : Expr.Derives t .sum [.word ['y']] [.comparison .less, .number 2.0] .y :=
      hside (.word ['y'] nofun)
    have htwo : Expr.Derives t .sum [.number 2.0] [] (.constant 2.0) := hside (.number 2.0)
    have hlink := Expr.Derives.link (u := [.word ['y']]) (v := [.number 2.0]) .less hy htwo
    exact Expr.read_eq_ok_iff.mpr ⟨_, hscans, .ofChain (.ofLinks hlink)⟩
  have hform : readForm (parametersOf form) form = .ok f := by
    rw [readForm, Expr.read_difference (hone _) (Expr.read_y _)]
    dsimp only [form]
    rw [hbound]
  have hlinear (env : Char → Float) : f.looksLinear env standardProbe = true := by
    -- there are no parameters, so any values will do
    have hany : f.looksLinear env standardProbe = f.looksLinear (fun _ => 0.0) standardProbe := rfl
    rw [hany]
    decide +kernel
  have hsplit : Form.split (Text.lowercase "1=y\x7by<2\x7d".toList) = .ok form := by
    decide +kernel
  have hkind : classifyRead .relation f (parametersOf form) standardProbe = .linearInY := by
    rw [classifyRead, hlinear]
    rfl
  rw [compile_of_form (by decide +kernel) hsplit, ofForm, hform]
  exact ⟨hkind, rfl⟩

/-- **Evaluation depends only on what is mentioned.** An expression has the same value at any two
points and for any two settings of the parameters that agree on what stands in it, in whatever
numbers it is computed, and it depends on `y` exactly if `y` stands in it. So the graph of a text
in whose expressions `x` does not stand is level, be it written as a graph or solved for `y`. -/
theorem compile_level :
    (∀ {α : Type} [Scalar α] (e : Expr) (env env' : Char → α) (x₁ y₁ x₂ y₂ : α),
      e.Agree env env' x₁ y₁ x₂ y₂ → e.eval env x₁ y₁ = e.eval env' x₂ y₂) ∧
    (∀ e : Expr, e.dependsOnY = true ↔ Expr.Within .y e) ∧
    ∀ (raw : String) (probe : Float), let eq := compile raw probe
      ¬ Expr.Within .x eq.math → (∀ e, eq.limit? = some e → ¬ Expr.Within .x e) →
        ∀ {α : Type} [Scalar α] (env : Char → α) (x₁ x₂ : α),
          eq.valueAt env x₁ = eq.valueAt env x₂ := by
  refine ⟨fun e env env' x₁ y₁ x₂ y₂ h => Expr.eval_congr h, Expr.dependsOnY_iff_within, ?_⟩
  intro raw probe eq hmath hlimit α _ env x₁ x₂
  refine valueAt_congr ⟨fun y => ?_, fun e he y => ?_⟩
  · exact agree_of_not_within hmath env x₁ x₂ y
  · exact agree_of_not_within (hlimit e he) env x₁ x₂ y

/-- The condition `y<a` does not ask for `x`, nor for any letter but `a`. The graph of the relation
`1=y` below the height two is level. -/
theorem compile_level_promoted :
    let eq := compile "1=y\x7by<2\x7d" standardProbe
    let e : Expr := .compare .less .y (.parameter 'a')
    let other : Char → Float := fun name => if name = 'a' then 3.0 else 0.0
    e.eval (fun _ => 3.0) 0.0 2.0 = e.eval other 1.0 2.0 ∧ e.dependsOnY = true ∧
      eq.classification = .linearInY ∧ ∀ x₁ x₂, eq.curve x₁ = eq.curve x₂ := by
  intro eq e other
  have hcompare {op : Comparison} {a b c : Expr} (ha : a.operands = []) (hb : b.operands = [])
      (hc : c.operands = []) (h : Expr.Within a (.compare op b c)) : a = b ∨ a = c :=
    ((Expr.within_compare ha op).mp h).imp (Expr.eq_of_within hb) (Expr.eq_of_within hc)
  have hagree : e.Agree (fun _ => 3.0) other 0.0 2.0 1.0 2.0 := by
    refine ⟨fun h => ?_, fun _ => rfl, fun name h => ?_⟩
    · obtain h | h := hcompare rfl rfl rfl h <;> cases h
    · obtain h | h := hcompare rfl rfl rfl h <;> cases h
      rfl
  have hy : Expr.Within .y e := .operand List.mem_cons_self .self
  obtain ⟨hclass, hread⟩ := compile_one_below_two
  have hmath : ¬ Expr.Within .x eq.math := by
    rw [math, formula, hread, Expr.within_binary rfl]
    rintro (h | h) <;> cases Expr.eq_of_within rfl h
  have hlimit : ∀ e, eq.limit? = some e → ¬ Expr.Within .x e := by
    rw [limit?, formula, hread]
    rintro _ ⟨⟩ h
    obtain h | h := hcompare rfl rfl rfl h <;> cases h
  obtain ⟨hvalue, hmentions, hlevel⟩ := compile_level
  exact ⟨hvalue e _ _ _ _ _ _ hagree, (hmentions e).mpr hy, hclass,
    hlevel _ _ hmath hlimit eq.parameters.value⟩

end Equation

end CurvePlot
