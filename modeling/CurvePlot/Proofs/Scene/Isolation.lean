import CurvePlot.Proofs.Debouncer
import CurvePlot.Proofs.JobBoard.Flight
import CurvePlot.Proofs.Scene.Caches
import CurvePlot.Proofs.Scene.Refusal
/-!
# Equations keep out of each other's way

Everything that belongs to an equation is found by its number: the row with its sliders and
all that is kept ready, the pass that is awaited, the text and the refresh that wait. An
operation on one equation writes under this number only. `Confined` says so of the whole
scene, the order of the equations included.

What is not found by the number are the passes that run. They are told by their ticket that
they are called off, and that this reaches no pass of another equation is a fact about the
history of the board (`JobBoard.passesOf_cancel_of_ne`). So the lemmas ask for a history of
the board, and every run gives one.
-/

namespace CurvePlot.Scene

/-- **Nothing but one equation was touched.** Every other one has its row, with sliders,
color, strip and contour, its passes and their results, and whatever waits for it, and
stands where it stood among the others. -/
structure Confined (id : Nat) (s s' : Scene) : Prop where
  row : ∀ i, i ≠ id → s'.rows.get? i = s.rows.get? i
  order : s'.rows.keys.filter (· ≠ id) = s.rows.keys.filter (· ≠ id)
  jobs : JobBoard.Confined id s.jobs s'.jobs
  pendingText : ∀ i, i ≠ id → s'.pendingText.get? i = s.pendingText.get? i
  edit : ∀ i, i ≠ id → s'.edits.deadlines.get? i = s.edits.deadlines.get? i
  refresh : ∀ i, i ≠ id → s'.refreshes.deadlines.get? i = s.refreshes.deadlines.get? i

/-- Where the other rows are the same, they stand in the same order. -/
theorem order_of_row {s s' : Scene} {id : Nat} (h : ∀ i, i ≠ id → s'.rows.get? i = s.rows.get? i) :
    s'.rows.keys.filter (· ≠ id) = s.rows.keys.filter (· ≠ id) :=
  calc s'.rows.keys.filter (· ≠ id)
      = (s'.rows.erase id).keys := (Keyed.keys_erase s'.rows id).symm
    _ = (s.rows.erase id).keys := by rw [Keyed.erase_congr h]
    _ = s.rows.keys.filter (· ≠ id) := Keyed.keys_erase s.rows id

namespace Confined

variable {s s' s'' : Scene} {id : Nat} {log : List JobBoard.Event}

theorem refl (id : Nat) (s : Scene) : Confined id s s :=
  ⟨fun _ _ => rfl, rfl, .refl id s.jobs, fun _ _ => rfl, fun _ _ => rfl, fun _ _ => rfl⟩

theorem trans (h : Confined id s s') (h' : Confined id s' s'') : Confined id s s'' where
  row i hi := (h'.row i hi).trans (h.row i hi)
  order := h'.order.trans h.order
  jobs := h.jobs.trans h'.jobs
  pendingText i hi := (h'.pendingText i hi).trans (h.pendingText i hi)
  edit i hi := (h'.edit i hi).trans (h.edit i hi)
  refresh i hi := (h'.refresh i hi).trans (h.refresh i hi)

/-- Landmarks belong to no equation. -/
theorem refreshDerived (h : Confined id s s') : Confined id s s'.refreshDerived :=
  ⟨h.row, h.order, h.jobs, h.pendingText, h.edit, h.refresh⟩

theorem updateRow (s : Scene) (id : Nat) (f : Row → Row) : Confined id s (s.updateRow id f) where
  row i hi := Keyed.get?_modify_of_ne s.rows f hi
  order := by rw [Scene.updateRow, Keyed.keys_modify]
  jobs := .refl id s.jobs
  pendingText _ _ := rfl
  edit _ _ := rfl
  refresh _ _ := rfl

theorem requestFine (hrun : JobBoard.Run log s.jobs) (id : Nat) (eq : Equation) :
    Confined id s (s.requestFine id eq) := by
  unfold Scene.requestFine
  split
  · exact refl id s
  · exact { refl id s with jobs := .spawn hrun id eq s.viewport s.settings }

theorem refreshEquation (hrun : JobBoard.Run log s.jobs) (id : Nat) :
    Confined id s (s.refreshEquation id) := by
  unfold Scene.refreshEquation
  split
  · exact refl id s
  · next r _ =>
    split
    · exact refl id s
    · -- an explicit equation, and below one that is promoted: the strip is put into the row
      exact updateRow s id _
    · exact updateRow s id _
    · split
      · exact refl id s
      · -- a contour is put into the row before the pass begins
        let put : Scene := s.updateRow id fun r' => { r' with contour := some (s.standIn r) }
        have hput : Confined id s put := updateRow s id _
        exact hput.trans (requestFine (s := put) hrun id r.equation)

theorem contour (s : Scene) (id : Nat) : Confined id s (s.contour id).1 := by
  unfold Scene.contour
  split
  · exact refl id s
  · split
    · exact refl id s
    · exact updateRow s id _

theorem remove (hrun : JobBoard.Run log s.jobs) (hs : s.remove id = .ok s') : Confined id s s' := by
  obtain ⟨-, rfl⟩ := remove_eq_ok hs
  have hrow : ∀ i, i ≠ id → (s.rows.erase id).get? i = s.rows.get? i :=
    fun i hi => Keyed.get?_erase_of_ne s.rows hi
  exact refreshDerived
    { row := hrow
      order := order_of_row hrow
      jobs := .cancel hrun id
      pendingText := fun _ hi => Keyed.get?_erase_of_ne s.pendingText hi
      edit := fun _ hi => Debouncer.get?_cancel_of_ne hi
      refresh := fun _ hi => Debouncer.get?_cancel_of_ne hi }

theorem setText (hrun : JobBoard.Run log s.jobs) {text : String}
    (hs : s.setText id text = .ok s') : Confined id s s' := by
  rcases setText_eq_ok hs with ⟨-, hremove⟩ | ⟨-, r, -, rfl⟩
  · exact remove hrun hremove
  -- on the way the equation is rewritten, its pass called off and its refresh forgotten
  let written : Scene := { s with
    rows := s.rows.insert id (r.retyped (s.compile text))
    jobs := s.jobs.cancel id
    refreshes := s.refreshes.cancel id }
  have hrow : ∀ i, i ≠ id → written.rows.get? i = s.rows.get? i :=
    fun i hi => Keyed.get?_insert_of_ne s.rows _ hi
  have hwritten : Confined id s written :=
    { row := hrow
      order := order_of_row hrow
      jobs := .cancel hrun id
      pendingText := fun _ _ => rfl
      edit := fun _ _ => rfl
      refresh := fun _ hi => Debouncer.get?_cancel_of_ne hi }
  -- the refresh that follows continues the history with the call off in it
  have hrun' : JobBoard.Run (.calledOff id :: log) written.jobs := .cancel id hrun
  exact (hwritten.trans (refreshEquation hrun' id)).refreshDerived

theorem editText {text : String} {now : Nat} (hs : s.editText id text now = .ok s') :
    Confined id s s' := by
  obtain ⟨-, rfl⟩ := editText_eq_ok hs
  exact { refl id s with
    pendingText := fun _ hi => Keyed.get?_insert_of_ne s.pendingText _ hi
    edit := fun _ hi => Debouncer.get?_schedule_of_ne hi }

theorem setColor {color : Color} (hs : s.setColor id color = .ok s') : Confined id s s' := by
  rw [setColor_eq_ok hs]
  exact updateRow s id _

theorem setParameter (hrun : JobBoard.Run log s.jobs) {name : Char} {value : Float} {now : Nat}
    (hs : s.setParameter id name value now = .ok s') : Confined id s s' := by
  obtain ⟨-, parameters, -, -, rfl⟩ := setParameter_eq_ok hs
  exact { updateRow s id _ with
    jobs := .cancel hrun id
    refresh := fun _ hi => Debouncer.get?_schedule_of_ne hi }

theorem setParameterRange {name : Char} {min max : Float}
    (hs : s.setParameterRange id name min max = .ok s') : Confined id s s' := by
  obtain ⟨-, p, q, -, -, -, rfl⟩ := setParameterRange_eq_ok hs
  exact updateRow s id _

end Confined

variable {s : Scene} {id : Nat}

/-- A request is confined to its equation if that holds of what it makes of the scene when
it is granted. -/
theorem confined_request (outcome : Except SceneError Scene)
    (h : ∀ s', outcome = .ok s' → Confined id s s') :
    Confined id s (s.after ((outcome.map fun s' => (Answer.done, s')).map (·.2))) := by
  cases outcome with
  | ok s' => exact h s' rfl
  | error e => exact .refl id s

/-- **An equation is kept out of what is asked of another,** whether that is granted or not.
After every run, a request that is carried out in place, one step after the other, touches
the equation that it names and no other one. So does bringing an equation up to date, and so
does asking for its contour. -/
theorem run_isolated (settings : Settings Float) (width height : Float) (actions : List Action) :
    let s := (Scene.new settings width height).run actions
    (∀ (q : Request) id, q.id? = some id → Confined id s (q.perform.run s).2) ∧
      (∀ id, Confined id s (s.refreshEquation id)) ∧ ∀ id, Confined id s (s.contour id).1 := by
  intro s
  -- a run gives a history of the board, which is what the lemmas ask for
  have hcurrent : s.Current 0 0 := (Current.start settings width height).run actions
  obtain ⟨log, hrun, -⟩ := hcurrent.passes
  refine ⟨fun q id hq => ?_, fun id => .refreshEquation hrun id, fun id => .contour s id⟩
  rw [perform_run]
  cases q with
  | remove i =>
    cases hq
    exact confined_request (s.remove id) fun s' hs => .remove hrun hs
  | setText i text =>
    cases hq
    exact confined_request (s.setText id text) fun s' hs => .setText hrun hs
  | editText i text now =>
    cases hq
    exact confined_request (s.editText id text now) fun s' hs => .editText hs
  | setColor i color =>
    cases hq
    exact confined_request (s.setColor id color) fun s' hs => .setColor hs
  | parameters i =>
    cases hq
    show Confined id s (s.after (((s.parameters id).map fun table => (Answer.sliders table, s)).map (·.2)))
    cases s.parameters id <;> exact .refl id s
  | setParameter i name value now =>
    cases hq
    exact confined_request (s.setParameter id name value now) fun s' hs => .setParameter hrun hs
  | setParameterRange i name min max =>
    cases hq
    exact confined_request (s.setParameterRange id name min max) fun s' hs => .setParameterRange hs
  -- loading names no equation
  | load content => cases hq

/-- Two lines have a slider of the same letter, and one of them is moved. -/
theorem run_isolated_lines :
    let s := (Scene.new .standard 800.0 600.0).run [.add "a*x", .add "a"]
    let q : Request := .setParameter 0 'a' 3.0 0
    q.id? = some 0 ∧ Confined 0 s (q.perform.run s).2 := by
  intro s q
  have hq : q.id? = some 0 := rfl
  exact ⟨hq, (run_isolated .standard 800.0 600.0 [.add "a*x", .add "a"]).1 q 0 hq⟩

end CurvePlot.Scene
