import CurvePlot.Proofs.Keyed
import CurvePlot.Scene.Edit
/-!
# What editing a scene does

One lemma for each operation that may be refused: what it makes of the scene if it is not
(`_eq_ok`), and why it is refused (`_eq_error`). Whoever proves something of an edited
scene starts from these and does not look into the operation.
-/

namespace CurvePlot

/-- The row of a new text: color and sliders are taken over, and nothing is kept ready. -/
def Row.retyped (r : Row) (compiled : Equation) : Row :=
  Row.fresh { compiled with parameters := compiled.parameters.inherit r.equation.parameters }
    r.color

namespace Scene

/-- The text removes the equation instead of writing it. -/
def Blank (text : String) : Prop := (Text.trim text.toList).isEmpty = true

instance (text : String) : Decidable (Blank text) := inferInstanceAs (Decidable (_ = true))

variable {s s' : Scene} {id : Nat} {text : String} {now : Nat} {e : SceneError}

theorem row_eq_ok {r : Row} : s.row id = .ok r ↔ s.rows.get? id = some r := by
  unfold row
  split
  · next r' hr' => rw [hr', Except.ok.injEq, Option.some.injEq]
  · next hr' => simp [hr']

theorem row_eq_error (h : s.row id = .error e) : s.rows.get? id = none := by
  unfold row at h
  split at h
  · cases h
  · assumption

/-- To write a row as it is changes nothing. -/
theorem updateRow_eq_self {f : Row → Row} (h : ∀ r, s.rows.get? id = some r → f r = r) :
    s.updateRow id f = s := by
  unfold updateRow
  rw [Keyed.modify_eq_self h]

/-! ### Operations that went well -/

theorem remove_eq_ok (h : s.remove id = .ok s') : (∃ r, s.rows.get? id = some r) ∧
    s' = { s with
      rows := s.rows.erase id
      jobs := s.jobs.cancel id
      refreshes := s.refreshes.cancel id
      edits := s.edits.cancel id
      pendingText := s.pendingText.erase id }.refreshDerived := by
  unfold remove at h
  split at h
  · cases h
  · next r hr => exact ⟨⟨r, row_eq_ok.mp hr⟩, (Except.ok.inj h).symm⟩

/-- A blank text removes the equation, and any other writes it. -/
theorem setText_eq_ok (h : s.setText id text = .ok s') :
    (Blank text ∧ s.remove id = .ok s') ∨
    (¬ Blank text ∧ ∃ r, s.rows.get? id = some r ∧
      s' = (Scene.refreshEquation { s with
        rows := s.rows.insert id (r.retyped (s.compile text))
        jobs := s.jobs.cancel id
        refreshes := s.refreshes.cancel id } id).refreshDerived) := by
  unfold setText at h
  split at h
  · next hblank => exact .inl ⟨hblank, h⟩
  · next hblank =>
    split at h
    · cases h
    · next r hr => exact .inr ⟨hblank, r, row_eq_ok.mp hr, (Except.ok.inj h).symm⟩

theorem editText_eq_ok (h : s.editText id text now = .ok s') :
    (∃ r, s.rows.get? id = some r) ∧ s' = { s with
      pendingText := s.pendingText.insert id text
      edits := s.edits.schedule id now } := by
  unfold editText at h
  split at h
  · cases h
  · next r hr => exact ⟨⟨r, row_eq_ok.mp hr⟩, (Except.ok.inj h).symm⟩

theorem setColor_eq_ok {color : Color} (h : s.setColor id color = .ok s') :
    s' = s.updateRow id fun r => { r with color := color } := by
  unfold setColor at h
  split at h
  · cases h
  · exact (Except.ok.inj h).symm

/-- What was kept ready is dropped along with the old value. -/
theorem setParameter_eq_ok {name : Char} {value : Float}
    (h : s.setParameter id name value now = .ok s') :
    ∃ r parameters, s.rows.get? id = some r ∧
      r.equation.parameters.set? name value = some parameters ∧
      s' = { s with
        rows := s.rows.modify id fun r =>
          Row.evict { r with equation := { r.equation with parameters := parameters } }
        jobs := s.jobs.cancel id
        refreshes := s.refreshes.schedule id now } := by
  unfold setParameter at h
  split at h
  · cases h
  · next r hr =>
    split at h
    · cases h
    · next parameters hset =>
      exact ⟨r, parameters, row_eq_ok.mp hr, hset, (Except.ok.inj h).symm⟩

theorem setParameterRange_eq_ok {name : Char} {min max : Float}
    (h : s.setParameterRange id name min max = .ok s') :
    ∃ r p q, s.rows.get? id = some r ∧ r.equation.parameters.get? name = some p ∧
      p.setRange? min max = some q ∧
      s' = s.updateRow id fun r =>
        { r with equation := { r.equation with
          parameters := r.equation.parameters.insert name q } } := by
  unfold setParameterRange at h
  split at h
  · cases h
  · next r hr =>
    split at h
    · cases h
    · next p hp =>
      split at h
      · cases h
      · next q hq => exact ⟨r, p, q, row_eq_ok.mp hr, hp, hq, (Except.ok.inj h).symm⟩

/-! ### Operations that were refused -/

theorem remove_eq_error (h : s.remove id = .error e) : s.rows.get? id = none := by
  unfold remove at h
  split at h
  · next hrow => exact row_eq_error hrow
  · cases h

/-- A text is refused only if there is no such equation. -/
theorem setText_eq_error (h : s.setText id text = .error e) : s.rows.get? id = none := by
  unfold setText at h
  split at h
  · exact remove_eq_error h
  · split at h
    · next hrow => exact row_eq_error hrow
    · cases h

theorem editText_eq_error (h : s.editText id text now = .error e) : s.rows.get? id = none := by
  unfold editText at h
  split at h
  · next hrow => exact row_eq_error hrow
  · cases h

end Scene

end CurvePlot
