import CurvePlot.Proofs.Expr.Occurrence
import CurvePlot.Proofs.Exact
/-!
# Relations drawn as graphs

A relation that looks linear in `y` is solved for `y` and drawn as a graph. Whether it
looks linear is told from three values over one place, and the graph is drawn over all
places. So it is the curve only where the relation is linear in truth.

* `Expr.AffineAt` says that an expression is linear in `y` over a place, reading arithmetic
  as exact.
* `Expr.LinearInY` says that it is written so: `y` stands in sums, behind signs, and in
  products and quotients by something without `y`.

`promotion_sound` says that the solution is the curve wherever the relation is affine, and
that a relation which is written so is affine everywhere. The relation `abs(y)=1` also
looks linear, with the solution `1`; but `-1` solves it as well.
-/

namespace CurvePlot

/-! ### Lines -/

namespace Exact

/-- **Values on a line,** or none at all. -/
def Line (F : ℝ → Exact) : Prop :=
  (∃ m c : ℝ, ∀ y, F y = number (m * y + c)) ∨ ∀ y, F y = undefined

namespace Line

variable {F G : ℝ → Exact}

theorem const (v : Exact) : Line fun _ => v := by
  cases v with
  | undefined => exact .inr fun _ => rfl
  | number c => exact .inl ⟨0, c, fun y => by rw [zero_mul, zero_add]⟩

/-- What takes lines to lines does so for all of `F`, if it keeps the undefined. -/
theorem map (h : Line F) (op : Exact → Exact) (hnone : op undefined = undefined)
    (hop : ∀ m c : ℝ, Line fun y => op (number (m * y + c))) : Line fun y => op (F y) := by
  rcases h with ⟨m, c, hF⟩ | hF
  · simp only [hF]
    exact hop m c
  · simp only [hF]
    exact .inr fun _ => hnone

theorem neg (h : Line F) : Line fun y => -F y := by
  refine h.map (fun a => -a) rfl fun m c => .inl ⟨-m, -c, fun y => ?_⟩
  dsimp only
  rw [neg_number]
  congr 1
  ring

theorem add (hF : Line F) (hG : Line G) : Line fun y => F y + G y := by
  rcases hG with ⟨m', c', hG⟩ | hG
  · rcases hF with ⟨m, c, hF⟩ | hF
    · -- both are defined, and slopes and offsets are added
      refine .inl ⟨m + m', c + c', fun y => ?_⟩
      dsimp only
      rw [hF, hG, number_add]
      congr 1
      ring
    · refine .inr fun y => ?_
      dsimp only
      rw [hF]
      rfl
  · refine .inr fun y => ?_
    dsimp only
    rw [hG, add_undefined]

theorem sub (hF : Line F) (hG : Line G) : Line fun y => F y - G y := by
  have hneg : (fun y => F y - G y) = fun y => F y + -G y :=
    funext fun y => difference_eq (F y) (G y)
  rw [hneg]
  exact hF.add hG.neg

theorem mul_const (h : Line F) (v : Exact) : Line fun y => F y * v := by
  refine h.map (· * v) rfl fun m c => ?_
  cases v with
  | undefined => exact .inr fun _ => rfl
  | number d =>
    refine .inl ⟨m * d, c * d, fun y => ?_⟩
    dsimp only
    rw [number_mul]
    congr 1
    ring

theorem const_mul (h : Line F) (v : Exact) : Line fun y => v * F y := by
  have hcomm : (fun y => v * F y) = fun y => F y * v := funext fun y => product_comm v (F y)
  rw [hcomm]
  exact h.mul_const v

theorem div_const (h : Line F) (v : Exact) : Line fun y => F y / v := by
  refine h.map (· / v) rfl fun m c => ?_
  cases v with
  | undefined => exact .inr fun _ => rfl
  | number d =>
    -- a quotient by zero is undefined at every height, which is a line as well
    by_cases hzero : d = 0
    · refine .inr fun y => ?_
      dsimp only
      rw [hzero, number_div_zero]
    · refine .inl ⟨m / d, c / d, fun y => ?_⟩
      dsimp only
      rw [number_div _ _ hzero]
      congr 1
      ring

end Line

end Exact

/-! ### Expressions that are linear in the second coordinate -/

namespace Expr

variable {e : Expr} {env : Char → Exact} {x : Exact}

/-- **The values over a place lie on a line,** and are all defined. -/
def AffineAt (e : Expr) (env : Char → Exact) (x : Exact) : Prop :=
  ∃ m c : ℝ, ∀ y : ℝ, e.eval env x (.number y) = .number (m * y + c)

/-- **An expression written linearly in `y`.** -/
inductive LinearInY : Expr → Prop where
  | y : LinearInY .y
  | free {e : Expr} : e.dependsOnY = false → LinearInY e
  | neg {e : Expr} : LinearInY e → LinearInY (.neg e)
  | add {a b : Expr} : LinearInY a → LinearInY b → LinearInY (.binary .add a b)
  | sub {a b : Expr} : LinearInY a → LinearInY b → LinearInY (.binary .sub a b)
  | scale {a b : Expr} : a.dependsOnY = false → LinearInY b → LinearInY (.mul a b)
  | mul {a b : Expr} : LinearInY a → b.dependsOnY = false → LinearInY (.mul a b)
  | div {a b : Expr} : LinearInY a → b.dependsOnY = false → LinearInY (.binary .div a b)

/-- **What is written linearly has a line of values over a place.** -/
theorem LinearInY.line (h : LinearInY e) (env : Char → Exact) (x : Exact) :
    Exact.Line fun y => e.eval env x (.number y) := by
  -- a factor without `y` has its value at height zero everywhere
  have hconst {e : Expr} (hfree : e.dependsOnY = false) :
      (fun y : ℝ => e.eval env x (.number y)) = fun _ => e.eval env x (.number 0) :=
    funext fun y => eval_of_dependsOnY hfree (Exact.number y) (Exact.number 0)
  induction h with
  | y => exact .inl ⟨1, 0, fun y => by rw [one_mul, add_zero]; rfl⟩
  | free hfree =>
    rw [hconst hfree]
    exact .const _
  | neg _ ih => exact ih.neg
  | add _ _ iha ihb => exact iha.add ihb
  | sub _ _ iha ihb => exact iha.sub ihb
  | @scale a b hfree _ ihb =>
    show Exact.Line fun y => (fun y => a.eval env x (.number y)) y * b.eval env x (.number y)
    rw [hconst hfree]
    exact ihb.const_mul _
  | @mul a b _ hfree iha =>
    show Exact.Line fun y => a.eval env x (.number y) * (fun y => b.eval env x (.number y)) y
    rw [hconst hfree]
    exact iha.mul_const _
  | @div a b _ hfree iha =>
    show Exact.Line fun y => a.eval env x (.number y) / (fun y => b.eval env x (.number y)) y
    rw [hconst hfree]
    exact iha.div_const _

end Expr

/-! ### The graph and the curve -/

namespace Formula

/-- How much higher the value is at height one than at height zero. -/
noncomputable def slope (f : Formula) (env : Char → Exact) (x : Exact) : Exact :=
  f.math.eval env x (.number 1) - f.math.eval env x (.number 0)

variable {f : Formula} {env : Char → Exact} {x : Exact}

/-- Over a place where a formula is affine, its slope is that of the line. -/
theorem slope_eq {m c : ℝ} (h : ∀ y : ℝ, f.math.eval env x (.number y) = .number (m * y + c)) :
    f.slope env x = .number m := by
  rw [slope, h, h, Exact.number_sub]
  congr 1
  ring

/-- And the solution is where the line meets zero. -/
theorem solution_eq {m c : ℝ} (hm : m ≠ 0)
    (h : ∀ y : ℝ, f.math.eval env x (.number y) = .number (m * y + c)) :
    f.solution env x = .number (-c / m) := by
  have hslope : f.math.eval env x 1.0 - f.math.eval env x 0.0 = .number m := by
    rw [Exact.one_literal, Exact.zero_literal]
    exact slope_eq h
  rw [solution, hslope, Exact.zero_literal, h, Exact.neg_number, Exact.number_div _ _ hm]
  congr 1
  ring

end Formula

namespace Equation

/-- The values of an equation's parameters, as the numbers they are. -/
noncomputable def exactValues (eq : Equation) (name : Char) : Exact :=
  Exact.ofFloat (eq.parameters.value name)

/-- **A relation drawn as a graph is drawn where it is,** over every place where it is
affine in `y` in truth and not level: there it vanishes exactly at the height of the graph.
If it is written linearly in `y`, it is affine over every place where its slope is defined. -/
theorem promotion_sound (raw : String) (probe : Float) (f : Formula)
    (hpromoted : (compile raw probe).classification = .linearInY)
    (hread : (compile raw probe).outcome = .ok f) (hlimit : f.limit = none) (x : ℝ) :
    let eq := compile raw probe
    let env := eq.exactValues
    (f.math.LinearInY → (∃ s, f.slope env (.number x) = .number s) →
      f.math.AffineAt env (.number x)) ∧
    (f.math.AffineAt env (.number x) → f.slope env (.number x) ≠ .number 0 →
      ∀ y : ℝ, f.math.eval env (.number x) (.number y) = .number 0 ↔
        eq.valueAt env (.number x) = .number y) := by
  intro eq env
  refine ⟨fun hlinear => ?_, ?_⟩
  · rintro ⟨s, hs⟩
    -- a line of values, or none: a slope that is defined rules the second out
    rcases hlinear.line env (.number x) with haffine | hnone
    · exact haffine
    · have hone : f.math.eval env (.number x) (.number 1) = .undefined := hnone 1
      rw [Formula.slope, hone] at hs
      cases hs
  · rintro ⟨m, c, hline⟩ hslope y
    -- a level line has slope zero
    have hm : m ≠ 0 := by
      rintro rfl
      exact hslope (Formula.slope_eq hline)
    have hvalue : eq.valueAt env (.number x) = .number (-c / m) := by
      rw [valueAt, hread, hpromoted]
      dsimp only
      rw [Formula.admits, hlimit, Formula.solution_eq hm hline]
      rfl
    rw [hvalue, hline]
    constructor
    · -- along the line the root and the quotient are the same equation
      intro hzero
      have hroot : m * y + c = 0 := Exact.number.inj hzero
      congr 1
      field_simp
      linarith
    · intro hy
      obtain rfl : -c / m = y := Exact.number.inj hy
      congr 1
      field_simp
      ring

/-- The equation `x=y` is written linearly, and its graph over two is at height two. -/
theorem promotion_sound_diagonal :
    let eq := compile "x=y" standardProbe
    let f : Formula := ⟨.binary .sub .x .y, none⟩
    eq.classification = .linearInY ∧ f.math.AffineAt eq.exactValues (.number 2) ∧
      eq.valueAt eq.exactValues (.number 2) = .number 2 := by
  intro eq f
  -- three samples decide, and the check of them is evaluated
  have hlooks (env : Char → Float) : f.looksLinear env standardProbe = true := by
    -- there are no parameters, so any values will do
    have hany : f.looksLinear env standardProbe = f.looksLinear (fun _ => 0.0) standardProbe := rfl
    rw [hany]
    decide +kernel
  have hsides : Form.equalities (lowered "x=y") = [(['x'], ['y'])] := by decide +kernel
  obtain ⟨hclass, houtcome⟩ : eq.classification = .linearInY ∧ eq.outcome = .ok f :=
    compile_of_read (by decide) (by decide +kernel) hsides Expr.read_x Expr.read_y hlooks
  have hvalue (y : ℝ) :
      f.math.eval eq.exactValues (.number 2) (.number y) = .number (2 - y) := rfl
  have hslope : f.slope eq.exactValues (.number 2) = .number (-1) := by
    rw [Formula.slope, hvalue, hvalue, Exact.number_sub]
    norm_num
  obtain ⟨hwritten, hsound⟩ :=
    promotion_sound "x=y" standardProbe f hclass houtcome rfl 2
  have haffine : f.math.AffineAt eq.exactValues (.number 2) :=
    hwritten (.sub (.free rfl) .y) ⟨-1, hslope⟩
  have hne : f.slope eq.exactValues (.number 2) ≠ .number 0 := by
    rw [hslope]
    intro h
    exact absurd (Exact.number.inj h) (by norm_num)
  refine ⟨hclass, haffine, (hsound haffine hne 2).mp ?_⟩
  rw [hvalue, sub_self]

/-- **A relation that only looks linear is drawn without its other half.** The equation
`abs(y)=1` is solved for `y`, and its graph over zero is at height one. But it holds at
height minus one as well. -/
theorem abs_promoted :
    let eq := compile "abs(y)=1" standardProbe
    let f : Formula := ⟨.binary .sub (.call .abs .y) (.constant 1.0), none⟩
    eq.classification = .linearInY ∧ eq.outcome = .ok f ∧
      f.slope eq.exactValues (.number 0) = .number 1 ∧
      eq.valueAt eq.exactValues (.number 0) = .number 1 ∧
      f.math.eval eq.exactValues (.number 0) (.number (-1)) = .number 0 := by
  intro eq f
  have habs (t : Parameter.Table) : Expr.read t "abs(y)".toList = .ok (.call .abs .y) := by
    have hscans : Token.Scans "abs(y)".toList
        [.word ['a', 'b', 's'], .leftParen, .word ['y'], .rightParen] := by
      repeat' first | exact .nil | refine .token rfl rfl ?_
    have harg : Expr.Derives t .conditions [.word ['y']] [.rightParen] .y :=
      .conditions_of_atom (.word ['y'] (by decide))
    have hcall : Expr.Derives t .atom
        [.word ['a', 'b', 's'], .leftParen, .word ['y'], .rightParen] [] (.call .abs .y) :=
      .call (by decide) harg
    exact Expr.read_eq_ok_iff.mpr ⟨_, hscans, hcall.conditions_of_atom⟩
  have hone (t : Parameter.Table) : Expr.read t ['1'] = .ok (.constant 1.0) :=
    Expr.read_eq_ok_iff.mpr ⟨[.number 1.0], .token rfl rfl .nil, .conditions_of_atom (.number 1.0)⟩
  have hlinear (env : Char → Float) : f.looksLinear env standardProbe = true := by
    -- there are no parameters, so any values will do
    have hany : f.looksLinear env standardProbe = f.looksLinear (fun _ => 0.0) standardProbe := rfl
    rw [hany]
    decide +kernel
  obtain ⟨hclass, houtcome⟩ : eq.classification = .linearInY ∧ eq.outcome = .ok f :=
    compile_of_read (by decide) (by decide +kernel) (by decide +kernel) habs hone hlinear
  have hvalue (y : ℝ) :
      f.math.eval eq.exactValues (.number 0) (.number y) = .number (|y| - 1) := by
    -- the literal one is the number one
    have hunit : Exact.ofFloat 1.0 = .number 1 := by
      have hunpack : (1.0 : Float).toModel.unpack = .finite .positive (2 ^ 52) (-52) (by decide) :=
        rfl
      rw [Exact.ofFloat_eq hunpack]
      norm_num [Float.Model.UnpackedFloat.Sign.apply]
    show Exact.number |y| - Exact.ofFloat 1.0 = _
    rw [hunit, Exact.number_sub]
  refine ⟨hclass, houtcome, ?_, ?_, ?_⟩
  · rw [Formula.slope, hvalue, hvalue, Exact.number_sub]
    norm_num
  · rw [valueAt, houtcome, hclass]
    dsimp only
    have hsolution : f.solution eq.exactValues (.number 0) = .number 1 := by
      rw [Formula.solution, Exact.zero_literal, Exact.one_literal, hvalue, hvalue,
        Exact.neg_number, Exact.number_sub, Exact.number_div _ _ (by norm_num)]
      norm_num
    rw [hsolution]
    rfl
  · rw [hvalue]
    norm_num

end Equation

end CurvePlot
