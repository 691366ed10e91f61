import CurvePlot.Proofs.Equation.Compile
import CurvePlot.Proofs.Expr.Occurrence
/-!
# Graphs of functions

An equation that is drawn as the graph of a function says `y = f(x)`: the graph at `x` is the
value of its expression there, whatever height it is evaluated at. This holds as long as the
expression does not use `y` (`valueAt_eq`).

A bare expression that uses `y` is not drawn as a graph, and so is no relation. But what stands
behind `y =` or `f(x) =` is drawn as one in any case, also if it uses `y` itself
(`Circular`). Its graph is then the value at height zero, and the equation holds elsewhere:
`y=2*y-x` holds on the diagonal and is drawn as `-x` (`circular_drawn`).
`compile_explicit` says that nothing else goes wrong.
-/

namespace CurvePlot.Equation

variable {raw : String} {probe : Float} {f : Formula}

/-- **What stands behind `y =` or `f(x) =` uses `y` itself.** -/
def Circular (raw : String) : Prop :=
  ∃ form, Form.split (Text.lowercase raw.toList) = .ok form ∧ form.kind = .explicit ∧
    'y' ∈ form.body

/-- A form is read as a graph if it begins like one, or is bare and does not use `y`. -/
theorem classifyRead_eq_explicit_iff {kind : FormKind} {t : Parameter.Table} :
    classifyRead kind f t probe = .explicit ↔
      kind = .explicit ∨ kind = .bare ∧ f.math.dependsOnY = false := by
  -- a relation may be solved, but then it is classified as such
  have hprobed {b : Bool} : (if b then Classification.linearInY else .implicit) ≠ .explicit := by
    cases b <;> nofun
  unfold classifyRead
  cases kind with
  | explicit => exact iff_of_true rfl (.inl rfl)
  | relation => exact iff_of_false hprobed (by simp)
  | bare =>
    cases hy : f.math.dependsOnY with
    | false => exact iff_of_true rfl (.inr ⟨rfl, rfl⟩)
    | true => exact iff_of_false hprobed (by simp)

/-- A graph has a form, whose expressions are the equation's. -/
theorem exists_form_of_explicit (hclass : (compile raw probe).classification = .explicit)
    (hread : (compile raw probe).outcome = .ok f) :
    ∃ form, Form.split (Text.lowercase raw.toList) = .ok form ∧
      readForm (parametersOf form) form = .ok f ∧
        classifyRead form.kind f (parametersOf form) probe = .explicit := by
  -- a point and a text without a form are classified otherwise
  cases hpoint : PointLiteral.read? raw.toList with
  | some p =>
    rw [compile_of_point hpoint] at hclass
    cases hclass
  | none =>
    cases hsplit : Form.split (Text.lowercase raw.toList) with
    | error e =>
      rw [compile_of_error hpoint hsplit] at hread
      cases hread
    | ok form =>
      rw [compile_of_form hpoint hsplit, ofForm] at hclass hread
      cases hform : readForm (parametersOf form) form with
      | error e =>
        rw [hform] at hread
        cases hread
      | ok g =>
        rw [hform] at hclass hread
        obtain rfl : g = f := Except.ok.inj hread
        exact ⟨form, rfl, hform, hclass⟩

/-- **A graph uses `y` exactly if it is circular.** -/
theorem dependsOnY_iff_circular (hclass : (compile raw probe).classification = .explicit)
    (hread : (compile raw probe).outcome = .ok f) :
    f.math.dependsOnY = true ↔ Circular raw := by
  obtain ⟨form, hsplit, hform, hkind⟩ := exists_form_of_explicit hclass hread
  have hbody : f.math.dependsOnY = true ↔ 'y' ∈ form.body :=
    Expr.dependsOnY_iff_of_read (readForm_eq_ok hform).1
  constructor
  · intro hy
    rcases classifyRead_eq_explicit_iff.mp hkind with hexplicit | ⟨-, hfree⟩
    · exact ⟨form, hsplit, hexplicit, hbody.mp hy⟩
    · -- a bare expression that is drawn as a graph has been checked for `y`
      exact absurd (hfree.symm.trans hy) Bool.false_ne_true
  · rintro ⟨other, hother, -, hy⟩
    obtain rfl : form = other := Except.ok.inj (hsplit.symm.trans hother)
    exact hbody.mpr hy

/-- **A graph without restriction is the value of its expression,** if that does not use
`y`. -/
theorem valueAt_eq {α : Type} [Scalar α] {eq : Equation}
    (hclass : eq.classification = .explicit) (hread : eq.outcome = .ok f)
    (hlimit : f.limit = none) (hfree : f.math.dependsOnY = false) (env : Char → α) (x y : α) :
    eq.valueAt env x = f.math.eval env x y := by
  unfold valueAt
  rw [hread, hclass]
  dsimp only
  rw [Formula.admits, hlimit]
  exact Expr.eval_of_dependsOnY hfree 0.0 y

/-- **What is drawn as the graph of a function is one, unless it is circular.** The
expression of a graph does not use `y`, and where nothing restricts it, the relation
`y = f(x)`, its right side taken at `x` and `y`, holds exactly on the graph. -/
theorem compile_explicit (raw : String) (probe : Float) (f : Formula)
    (hclass : (compile raw probe).classification = .explicit)
    (hread : (compile raw probe).outcome = .ok f) :
    (f.math.dependsOnY = true ↔ Circular raw) ∧
    (¬ Circular raw → f.limit = none → ∀ {α : Type} [Scalar α] (env : Char → α) (x y : α),
      y = f.math.eval env x y ↔ y = (compile raw probe).valueAt env x) := by
  have hcircular := dependsOnY_iff_circular hclass hread
  refine ⟨hcircular, fun hnot hlimit α _ env x y => ?_⟩
  -- the height at which the graph is evaluated does not matter
  have hfree : f.math.dependsOnY = false :=
    Bool.eq_false_iff.mpr fun hy => hnot (hcircular.mp hy)
  rw [valueAt_eq hclass hread hlimit hfree env x y]

section Examples

variable {body : List Char} {e : Expr}

/-- The equation of a text that begins with `y =` or `f(x) =`. -/
theorem compile_of_explicit (hpoint : PointLiteral.read? raw.toList = none)
    (hsplit : Form.split (Text.lowercase raw.toList) = .ok ⟨.explicit, body, none⟩)
    (he : ∀ t, Expr.read t body = .ok e) (probe : Float) :
    (compile raw probe).classification = .explicit ∧
      (compile raw probe).outcome = .ok ⟨e, none⟩ := by
  have hform : readForm (parametersOf ⟨.explicit, body, none⟩) ⟨.explicit, body, none⟩ =
      .ok ⟨e, none⟩ := by
    rw [readForm, he]
  rw [compile_of_form hpoint hsplit, ofForm, hform]
  exact ⟨rfl, rfl⟩

/-- `y=x` is the graph of a function, and it is the diagonal. -/
theorem compile_explicit_diagonal : ¬ Circular "y=x" ∧ ∀ x y : Float,
    y = x ↔ y = (compile "y=x" standardProbe).curve x := by
  have hsplit : Form.split (Text.lowercase "y=x".toList) = .ok ⟨.explicit, ['x'], none⟩ := by
    decide +kernel
  -- the right side is `x` alone
  have hnot : ¬ Circular "y=x" := by
    rintro ⟨form, hform, -, hy⟩
    obtain rfl := Except.ok.inj (hsplit.symm.trans hform)
    exact absurd hy (by decide)
  obtain ⟨hclass, hread⟩ :=
    compile_of_explicit (by decide +kernel) hsplit Expr.read_x standardProbe
  refine ⟨hnot, fun x y => ?_⟩
  exact (compile_explicit "y=x" standardProbe ⟨.x, none⟩ hclass hread).2 hnot rfl _ x y

/-- **A circular equation is drawn as another curve.** The equation `y=2*y-x` is the diagonal,
and holds at height one over one. Its graph there is at height minus one. -/
theorem circular_drawn :
    let eq := compile "y=2*y-x" standardProbe
    let f : Formula := ⟨.binary .sub (.mul (.constant 2.0) .y) .x, none⟩
    eq.classification = .explicit ∧ eq.outcome = .ok f ∧ f.math.dependsOnY = true ∧
      1.0 = f.math.eval eq.parameters.value 1.0 1.0 ∧ 1.0 ≠ eq.curve 1.0 ∧ eq.curve 1.0 = -1.0 := by
  intro eq f
  have hscans : Token.Scans "2*y-x".toList
      [.number 2.0, .star, .word ['y'], .minus, .word ['x']] := by
    repeat' first | exact .nil | refine .token rfl rfl ?_
  have hright (t : Parameter.Table) : Expr.read t "2*y-x".toList =
      .ok (.binary .sub (.mul (.constant 2.0) .y) .x) := by
    have hatom {a : Expr} {u after : List Token} (h : Expr.Derives t .atom u after a) :
        Expr.Derives t .signed u after a := .ofPower (.ofAtom h)
    have htwo : Expr.Derives t .product [.number 2.0] [.star, .word ['y'], .minus, .word ['x']]
        (.constant 2.0) := .ofSigned (hatom (.number 2.0))
    have hproduct := htwo.mul (v := [.word ['y']]) (hatom (.word ['y'] (by decide)))
    have hdifference := (Expr.Derives.ofProduct hproduct).sub (v := [.word ['x']])
      (.ofSigned (hatom (.word ['x'] (by decide))))
    exact Expr.read_eq_ok_iff.mpr ⟨_, hscans, .ofChain (.ofSum hdifference)⟩
  obtain ⟨hclass, hread⟩ : eq.classification = .explicit ∧ eq.outcome = .ok f :=
    compile_of_explicit (by decide +kernel) (by decide +kernel) hright standardProbe
  have hcurve : eq.curve 1.0 = -1.0 := by
    -- at height zero, as every graph is evaluated
    rw [curve, valueAt, hread, hclass]
    show (2.0 * 0.0 - 1.0 : Float) = -1.0
    decide +kernel
  -- the relation holds at height one, and the graph is somewhere else
  refine ⟨hclass, hread, rfl, ?_, ?_, hcurve⟩
  · show (1.0 : Float) = 2.0 * 1.0 - 1.0
    decide +kernel
  · rw [hcurve]
    decide +kernel

end Examples

end CurvePlot.Equation
