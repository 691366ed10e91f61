import CurvePlot.Proofs.Equation.Compile
import CurvePlot.Proofs.Scene.Lasting
/-!
# Equations stay what their texts compile to

Sliders move, and everything that is kept ready comes and goes, but an equation of a scene
is at any time the one that its text compiles to with the probe of the scene, except for
where its sliders stand (`Equation.Slid`). The settings of a scene are the ones it was made
with. Both hold after every run (`Compiled.run`), as nothing that happens to an equation
makes it another one than its text says (`ofText_lasting`).
-/

namespace CurvePlot

/-- **The second equation is the first with its sliders moved.** -/
structure Equation.Slid (a b : Equation) : Prop where
  raw : b.raw = a.raw
  classification : b.classification = a.classification
  outcome : b.outcome = a.outcome
  names : b.parameters.keys = a.parameters.keys

namespace Equation.Slid

variable {a b c : Equation}

theorem refl (a : Equation) : Slid a a := ⟨rfl, rfl, rfl, rfl⟩

theorem trans (h : Slid a b) (h' : Slid b c) : Slid a c where
  raw := h'.raw.trans h.raw
  classification := h'.classification.trans h.classification
  outcome := h'.outcome.trans h.outcome
  names := h'.names.trans h.names

theorem of_names (eq : Equation) {parameters : Parameter.Table}
    (h : parameters.keys = eq.parameters.keys) :
    Slid eq { eq with parameters := parameters } := ⟨rfl, rfl, rfl, h⟩

end Equation.Slid

namespace Scene

variable {settings : Settings Float} {s : Scene}

/-- The equation is what its text compiles to, but for its sliders. -/
def OfText (settings : Settings Float) (eq : Equation) : Prop :=
  (Equation.compile eq.raw settings.linearProbe).Slid eq

theorem ofText_compile (settings : Settings Float) (text : String) :
    OfText settings (Equation.compile text settings.linearProbe) := by
  rw [OfText, Equation.raw_compile]
  exact .refl _

theorem OfText.slid {a b : Equation} (h : OfText settings a) (hslid : a.Slid b) :
    OfText settings b := by
  rw [OfText, hslid.raw]
  exact h.trans hslid

/-- **Being what the text compiles to lasts:** whatever is done to the sliders of an equation,
their letters stay. -/
theorem ofText_lasting (settings : Settings Float) :
    Equation.Lasting settings.linearProbe (OfText settings) where
  compile text := ofText_compile settings text
  inherit h _ := h.slid (.of_names _ (Keyed.keys_mapValues _ _))
  set h hset := by
    rw [Parameter.Table.eq_modify_of_set? hset]
    exact h.slid (.of_names _ (Keyed.keys_modify _ _ _))
  setRange h hp _ := h.slid (.of_names _ (Keyed.keys_insert_of_some hp _))

/-- **Every equation is what its text compiles to,** but for its sliders. -/
structure Compiled (settings : Settings Float) (s : Scene) : Prop where
  setup : s.settings = settings
  row : ∀ i r, s.rows.get? i = some r → OfText settings r.equation

namespace Compiled

theorem compile (h : s.Compiled settings) (text : String) :
    s.compile text = Equation.compile text settings.linearProbe := by
  rw [Scene.compile, h.setup]

theorem run (settings : Settings Float) (width height : Float) (actions : List Action) :
    ((Scene.new settings width height).run actions).Compiled settings :=
  have hevery := EveryEquation.run (ofText_lasting settings) width height actions
  ⟨hevery.setup, hevery.row⟩

end Compiled

end Scene

end CurvePlot
