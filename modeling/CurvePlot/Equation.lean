import CurvePlot.Equation.Form
import CurvePlot.Equation.PointLiteral
import CurvePlot.Expr.Eval
import CurvePlot.Expr.Parse
import CurvePlot.Text.Lowercase
/-!
# Equations

`Equation.compile` makes an equation of any text. A text that cannot be read
makes an equation with an error, which has no value anywhere.

* `Equation.valueAt` is the curve `y = f(x)` of an equation that is explicit, or
  is a relation found to be linear in `y` and solved for it.
* `Equation.fieldAt` is the function whose zeros are the curve.

Both are undefined outside the equation's domain restriction.
-/

namespace CurvePlot

/-- How an equation is drawn. -/
inductive Classification where
  /-- As the graph of a function of `x`. -/
  | explicit
  /-- As the zeros of a function of the plane. -/
  | implicit
  /-- A relation linear in `y`, as the graph of its solution. -/
  | linearInY
  | point (x y : Float)
deriving Repr, DecidableEq

namespace Classification

def isExplicit : Classification → Bool
  | explicit | linearInY => true
  | _ => false

def isImplicit : Classification → Bool
  | implicit => true
  | _ => false

def point? : Classification → Option (Float × Float)
  | point x y => some (x, y)
  | _ => none

end Classification

/-- The expressions that an equation was read as. -/
structure Formula where
  math : Expr
  limit : Option Expr
deriving Repr, DecidableEq

namespace Formula

/-- The formula without a value. -/
def undefined : Formula := ⟨.constant Double.undefined, none⟩

variable {α : Type} [Scalar α]

/-- Whether the domain restriction holds at a point. -/
@[specialize]
def admits (f : Formula) (env : Char → α) (x y : α) : Bool :=
  match f.limit with
  | none => true
  | some limit => limit.eval env x y == (1.0 : α)

/-- The `y` at which a formula linear in `y` vanishes, from its values at zero
and one. -/
@[specialize]
def solution (f : Formula) (env : Char → α) (x : α) : α :=
  let f0 := f.math.eval env x 0.0
  let f1 := f.math.eval env x 1.0
  (-f0) / (f1 - f0)

/-- Whether the formula's values at three heights over `probe` lie on a line that
is not level. -/
@[specialize]
def looksLinear (f : Formula) (env : Char → α) (probe : α) : Bool :=
  let v0 := f.math.eval env probe 0.0
  let v1 := f.math.eval env probe 1.0
  let v2 := f.math.eval env probe 2.0
  -- equally far apart up to rounding, and apart at all
  let d1 := v1 - v0
  let d2 := v2 - v1
  Scalar.isFinite v0 && Scalar.isFinite v1 && Scalar.isFinite v2
    && Scalar.abs (d1 - d2) < (1e-9 : α) && (1e-12 : α) < Scalar.abs d1

end Formula

/-- A compiled equation. -/
structure Equation where
  /-- The text it was compiled from. -/
  raw : String
  /-- How it is drawn. -/
  classification : Classification
  /-- Its expressions, or why it has none. -/
  outcome : Except CompileError Formula
  /-- The sliders of its parameters. -/
  parameters : Parameter.Table

namespace Equation

/-- The `x` at which relations are probed unless told otherwise. -/
def standardProbe : Float := 1.23

/-- The classification of a form as long as its expressions are not known. -/
def classify : FormKind → Classification
  | .explicit | .bare => .explicit
  | .relation => .implicit

/-- The classification of a form with its expressions: a bare expression in `y`
is a relation, and a relation that looks linear in `y` is solved for it. -/
def classifyRead (kind : FormKind) (f : Formula) (parameters : Parameter.Table)
    (probe : Float) : Classification :=
  let classification :=
    if kind = .bare ∧ f.math.dependsOnY then .implicit else classify kind
  -- only what would have to be traced is probed
  if classification.isImplicit && f.looksLinear parameters.value probe then .linearInY
  else classification

/-- The parameters of a form, from its body and then its domain restriction. -/
def parametersOf (form : Form) : Parameter.Table :=
  let table := Parameter.Table.empty.register (Parameter.letters form.body)
  match form.limit with
  | none => table
  | some limit => table.register (Parameter.letters limit)

/-- The expressions of a form. An error in the body comes before one in the
domain restriction. -/
def readForm (parameters : Parameter.Table) (form : Form) : Except CompileError Formula :=
  match Expr.read parameters form.body with
  | .error e => .error e
  | .ok math =>
    match form.limit with
    | none => .ok ⟨math, none⟩
    | some limit =>
      match Expr.read parameters limit with
      | .error e => .error e
      | .ok limit => .ok ⟨math, some limit⟩

/-- The equation of a form. -/
def ofForm (raw : String) (probe : Float) (form : Form) : Equation :=
  let parameters := parametersOf form
  match readForm parameters form with
  | .error e => ⟨raw, classify form.kind, .error e, parameters⟩
  | .ok f => ⟨raw, classifyRead form.kind f parameters probe, .ok f, parameters⟩

/-- **The equation of a text,** with relations probed at `probe`. -/
def compile (raw : String) (probe : Float) : Equation :=
  match PointLiteral.read? raw.toList with
  | some (x, y) => ⟨raw, .point x y, .ok .undefined, Parameter.Table.empty⟩
  | none =>
    -- the text is kept as it was written, but it is read in lower case
    match Form.split (Text.lowercase raw.toList) with
    | .error e => ⟨raw, .explicit, .error e, Parameter.Table.empty⟩
    | .ok form => ofForm raw probe form

/-- Whether the text could be read. -/
def isValid (eq : Equation) : Bool :=
  match eq.outcome with
  | .ok _ => true
  | .error _ => false

/-- Why the text could not be read. -/
def error? (eq : Equation) : Option CompileError :=
  match eq.outcome with
  | .ok _ => none
  | .error e => some e

/-- The expressions, without a value if the text could not be read. -/
def formula (eq : Equation) : Formula :=
  match eq.outcome with
  | .ok f => f
  | .error _ => .undefined

def math (eq : Equation) : Expr := eq.formula.math

def limit? (eq : Equation) : Option Expr := eq.formula.limit

def isExplicit (eq : Equation) : Bool := eq.classification.isExplicit

def isImplicit (eq : Equation) : Bool := eq.classification.isImplicit

def point? (eq : Equation) : Option (Float × Float) := eq.classification.point?

section Values

variable {α : Type} [Scalar α]

/-- The value `y` of the curve at `x`, for given values of the parameters.
Undefined if the equation is no graph, and outside its domain. -/
@[specialize]
def valueAt (eq : Equation) (env : Char → α) (x : α) : α :=
  match eq.outcome with
  | .error _ => Scalar.undefined
  | .ok f =>
    match eq.classification with
    | .explicit =>
      let y := f.math.eval env x 0.0
      if f.admits env x y then y else Scalar.undefined
    | .linearInY =>
      let y := f.solution env x
      if f.admits env x y then y else Scalar.undefined
    | .implicit | .point _ _ => Scalar.undefined

/-- The function whose zeros are the curve, for given values of the parameters.
Undefined outside the domain. -/
@[specialize]
def fieldAt (eq : Equation) (env : Char → α) (x y : α) : α :=
  match eq.outcome with
  | .error _ => Scalar.undefined
  | .ok f =>
    if f.admits env x y then
      match eq.classification with
      | .implicit | .linearInY => f.math.eval env x y
      | .explicit => y - f.math.eval env x 0.0
      | .point _ _ => Scalar.undefined
    else Scalar.undefined

end Values

/-- The curve at the equation's own sliders. -/
def curve (eq : Equation) (x : Float) : Float := eq.valueAt eq.parameters.value x

/-- The field at the equation's own sliders. -/
def field (eq : Equation) (x y : Float) : Float := eq.fieldAt eq.parameters.value x y

end Equation

end CurvePlot
