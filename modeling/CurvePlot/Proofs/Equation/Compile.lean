import CurvePlot.Equation
import CurvePlot.Proofs.Parameter.Table
/-!
# What compiling a text makes

A text is a point, or it has no form, or it has a form whose parts are read with the
parameters found in them. One lemma for each case, so that nothing behind looks into
`Equation.compile`, and what the table of a form holds: the letters of the body and of the
restriction (`contains_parametersOf`), each with the standard slider
(`get?_parametersOf`).
-/

namespace CurvePlot

namespace Equation

variable {raw : String} {probe : Float} {form : Form} {c : Char}

/-- The letters of a form are those of its body and those of its restriction. -/
theorem contains_parametersOf : (parametersOf form).contains c = true ↔
    c ∈ Parameter.letters form.body ∨
      ∃ limit, form.limit = some limit ∧ c ∈ Parameter.letters limit := by
  have hbody : (Parameter.Table.empty.register (Parameter.letters form.body)).contains c = true ↔
      c ∈ Parameter.letters form.body := by
    rw [Parameter.Table.contains_register]
    exact or_iff_right Bool.false_ne_true
  unfold parametersOf
  cases form.limit with
  | none =>
    refine hbody.trans (or_iff_left ?_).symm
    rintro ⟨limit, hlimit, -⟩
    cases hlimit
  | some limit =>
    refine (Parameter.Table.contains_register _ _).trans (or_congr hbody ?_)
    simp

/-- Every letter of a form starts with the standard slider. -/
theorem get?_parametersOf {p : Parameter} (h : (parametersOf form).get? c = some p) :
    p = .standard := by
  have hbody {q : Parameter}
      (hq : (Parameter.Table.empty.register (Parameter.letters form.body)).get? c = some q) :
      q = .standard := by
    refine Parameter.Table.eq_standard_of_register (t := Parameter.Table.empty) (fun r hr => ?_) hq
    cases hr
  unfold parametersOf at h
  cases hlimit : form.limit with
  | none =>
    rw [hlimit] at h
    exact hbody h
  | some limit =>
    rw [hlimit] at h
    exact Parameter.Table.eq_standard_of_register (fun _ => hbody) h

/-- The equation of a form keeps the parameters of the form, read or not. -/
theorem parameters_ofForm (raw : String) (probe : Float) (form : Form) :
    (ofForm raw probe form).parameters = parametersOf form := by
  unfold ofForm
  dsimp only
  split <;> rfl

/-- A text that has a form is no point. -/
theorem point?_ofForm (raw : String) (probe : Float) (form : Form) :
    (ofForm raw probe form).point? = none := by
  have hclassify (kind : FormKind) : (classify kind).point? = none := by
    cases kind <;> rfl
  unfold ofForm
  dsimp only
  split
  · exact hclassify form.kind
  · next f _ =>
    show (classifyRead form.kind f (parametersOf form) probe).point? = none
    -- probing makes a graph of a relation, and no point of anything
    have hprobed {b : Bool} {c : Classification} (hc : c.point? = none) :
        (if b then Classification.linearInY else c).point? = none := by
      cases b
      · exact hc
      · rfl
    unfold classifyRead
    refine hprobed ?_
    split
    · rfl
    · exact hclassify form.kind

/-- The expressions of a form are what its parts are read as. -/
theorem readForm_eq_ok {t : Parameter.Table} {f : Formula} (h : readForm t form = .ok f) :
    Expr.read t form.body = .ok f.math ∧
      (form.limit = none ∧ f.limit = none ∨ ∃ limit e, form.limit = some limit ∧
        f.limit = some e ∧ Expr.read t limit = .ok e) := by
  unfold readForm at h
  split at h
  · cases h
  · next math hmath =>
    split at h
    · next hlimit =>
      obtain rfl := Except.ok.inj h
      exact ⟨hmath, .inl ⟨hlimit, rfl⟩⟩
    · next limit hlimit =>
      split at h
      · cases h
      · next e he =>
        obtain rfl := Except.ok.inj h
        exact ⟨hmath, .inr ⟨limit, e, hlimit, rfl, he⟩⟩

/-! ### Texts -/

theorem compile_of_point {x y : Float} (h : PointLiteral.read? raw.toList = some (x, y)) :
    compile raw probe = ⟨raw, .point x y, .ok .undefined, Parameter.Table.empty⟩ := by
  rw [compile, h]

theorem compile_of_error {e : CompileError} (hpoint : PointLiteral.read? raw.toList = none)
    (h : Form.split (Text.lowercase raw.toList) = .error e) :
    compile raw probe = ⟨raw, .explicit, .error e, Parameter.Table.empty⟩ := by
  rw [compile, hpoint, h]

theorem compile_of_form (hpoint : PointLiteral.read? raw.toList = none)
    (h : Form.split (Text.lowercase raw.toList) = .ok form) :
    compile raw probe = ofForm raw probe form := by
  rw [compile, hpoint, h]

/-- A text that can be read and is no point has a form, and the parts of the form can be
read. -/
theorem exists_form_of_isValid (hvalid : (compile raw probe).isValid = true)
    (hcurve : (compile raw probe).point? = none) : ∃ form f,
      compile raw probe = ofForm raw probe form ∧ readForm (parametersOf form) form = .ok f ∧
        (compile raw probe).outcome = .ok f := by
  cases hpoint : PointLiteral.read? raw.toList with
  | some p =>
    rw [compile_of_point hpoint] at hcurve
    cases hcurve
  | none =>
    cases hsplit : Form.split (Text.lowercase raw.toList) with
    | error e =>
      rw [compile_of_error hpoint hsplit] at hvalid
      cases hvalid
    | ok form =>
      rw [compile_of_form hpoint hsplit] at hvalid ⊢
      cases hread : readForm (parametersOf form) form with
      | error e =>
        rw [ofForm, hread] at hvalid
        cases hvalid
      | ok f => exact ⟨form, f, rfl, hread, by rw [ofForm, hread]⟩

end Equation

end CurvePlot
