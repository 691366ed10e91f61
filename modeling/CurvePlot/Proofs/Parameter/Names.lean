import CurvePlot.Proofs.Equation.Compile
import CurvePlot.Proofs.Parameter.Letters
import CurvePlot.Proofs.Scene.Lasting
/-!
# Which letters a table has

A table gets its letters from texts, and what is found in a text can name a parameter
(`Parameter.isName`). Whatever moves the sliders of a table leaves its letters alone. So every
letter of every table can name a parameter (`Scene.named_run`); the coordinates and `e`, which
are read as something else, are in none.
-/

namespace CurvePlot

namespace Parameter.Table

/-- **Every letter of the table can name a parameter.** -/
def Named (t : Table) : Prop := ∀ c, t.contains c = true → isName c = true

theorem named_empty : Named empty := nofun

namespace Named

variable {t : Table}

/-- The letters of a text are names. -/
theorem register (h : t.Named) (text : List Char) : (t.register (letters text)).Named := by
  intro c hc
  rcases (contains_register t (letters text)).mp hc with hold | hnew
  · exact h c hold
  · exact (of_mem_letters hnew).2

/-- Sliders may move. -/
theorem of_keys {moved : Table} (h : t.Named) (hkeys : moved.keys = t.keys) : moved.Named := by
  intro c hc
  rw [← mem_keys_iff, hkeys, mem_keys_iff] at hc
  exact h c hc

end Named

end Parameter.Table

namespace Equation

theorem named_parametersOf (form : Form) : (parametersOf form).Named := by
  have hbody := Parameter.Table.named_empty.register form.body
  unfold parametersOf
  cases form.limit with
  | none => exact hbody
  | some limit => exact hbody.register limit

/-- **The table of a compiled equation** has only names. -/
theorem named_compile (raw : String) (probe : Float) : (compile raw probe).parameters.Named := by
  unfold compile
  split
  · exact Parameter.Table.named_empty
  · -- a text without a form leaves the table empty
    split
    · exact Parameter.Table.named_empty
    · next form _ =>
      rw [parameters_ofForm]
      exact named_parametersOf form

/-- And nothing that happens to the equation adds a letter. -/
theorem named_lasting (probe : Float) : Lasting probe fun eq => eq.parameters.Named where
  compile text := named_compile text probe
  inherit h _ := h.of_keys (Keyed.keys_mapValues _ _)
  set h hset := by
    rw [Parameter.Table.eq_modify_of_set? hset]
    exact h.of_keys (Keyed.keys_modify _ _ _)
  setRange h hp _ := h.of_keys (Keyed.keys_insert_of_some hp _)

end Equation

/-- **The tables of a scene have only names,** whatever was done to the scene. -/
theorem Scene.named_run (settings : Settings Float) (width height : Float)
    (actions : List Action) : ((Scene.new settings width height).run actions).EveryEquation settings
      fun eq => eq.parameters.Named :=
  .run (Equation.named_lasting _) width height actions

end CurvePlot
