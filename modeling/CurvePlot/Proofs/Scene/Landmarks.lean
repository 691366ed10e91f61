import CurvePlot.Proofs.Scene.Derived
import Mathlib.Data.List.Induction
/-!
# Where landmarks come from

Landmarks are not found anew by every action, and while the view moves or a slider waits
they may be those of an older state. But they are never older than the texts: an action
that writes an equation finds them anew in the end, and every other one leaves both the
landmarks and the texts as they are (`renewed_act`). So the landmarks of a scene are those
of a scene of its past in which the same equations stood (`exists_origin`).
-/

namespace CurvePlot.Scene

/-- **The landmarks are kept** while no equation reads differently. -/
structure KeepsLandmarks (s s' : Scene) : Prop where
  /-- The intercepts are those from before. -/
  intercepts : s'.intercepts = s.intercepts
  /-- The intersections are those from before. -/
  intersections : s'.intersections = s.intersections
  /-- The equations have the same texts. -/
  text : ∀ id, s'.text? id = s.text? id

namespace KeepsLandmarks

variable {s s' s'' : Scene}

theorem refl (s : Scene) : KeepsLandmarks s s := ⟨rfl, rfl, fun _ => rfl⟩

theorem trans (h : KeepsLandmarks s s') (h' : KeepsLandmarks s' s'') : KeepsLandmarks s s'' where
  intercepts := h'.intercepts.trans h.intercepts
  intersections := h'.intersections.trans h.intersections
  text id := (h'.text id).trans (h.text id)

theorem updateRow (s : Scene) (i : Nat) {f : Row → Row}
    (hf : ∀ r, (f r).equation.raw = r.equation.raw) : KeepsLandmarks s (s.updateRow i f) where
  intercepts := rfl
  intersections := rfl
  text := (SameTexts.updateRow s i hf).text

theorem refreshEquation (s : Scene) (i : Nat) : KeepsLandmarks s (s.refreshEquation i) := by
  have htext := (SameTexts.refreshEquation s i).text
  cases hr : s.rows.get? i with
  | none =>
    rw [refreshEquation_of_none hr]
    exact refl s
  | some r =>
    -- what is not a row stays as it is
    obtain ⟨f, jobs, heq, -, -⟩ := refreshEquation_eq hr
    rw [heq] at htext ⊢
    exact ⟨rfl, rfl, htext⟩

theorem contour (s : Scene) (i : Nat) : KeepsLandmarks s (s.contour i).1 := by
  unfold Scene.contour
  split
  · exact refl s
  · split
    · exact refl s
    · exact updateRow s i fun _ => rfl

theorem prepared (s : Scene) : KeepsLandmarks s s.prepared :=
  List.foldlRecOn s.rows.keys (fun s id => (s.contour id).1) (motive := KeepsLandmarks s) (refl s)
    fun t ht id _ => ht.trans (contour t id)

theorem togglePin (s : Scene) (x y : Float) : KeepsLandmarks s (s.togglePin x y).1 := by
  unfold Scene.togglePin
  dsimp only
  split <;> exact ⟨rfl, rfl, fun _ => rfl⟩

theorem installOne (state : Scene × Bool) (f : Finished) :
    KeepsLandmarks state.1 (Scene.installOne state f).1 := by
  unfold Scene.installOne
  split
  · exact updateRow state.1 f.id fun _ => rfl
  · exact refl state.1

theorem receive (s : Scene) : KeepsLandmarks s s.receive :=
  List.foldlRecOn s.jobs.receive.2.toList Scene.installOne
    (motive := fun state => KeepsLandmarks s state.1) ⟨rfl, rfl, fun _ => rfl⟩
    fun state hstate f _ => hstate.trans (installOne state f)

end KeepsLandmarks

/-- Either the landmarks were found anew, or they are kept. -/
def Renewed (s s' : Scene) : Prop := s'.Derived ∨ KeepsLandmarks s s'

theorem Renewed.refl (s : Scene) : Renewed s s := .inr (.refl s)

theorem Renewed.after {s : Scene} {outcome : Except SceneError Scene}
    (h : ∀ s', outcome = .ok s' → Renewed s s') : Renewed s (s.after outcome) :=
  after_of (.refl s) h

theorem derived_refreshAll (s : Scene) : s.refreshAll.Derived := derived_refreshDerived _

theorem remove_derived {s s' : Scene} {id : Nat} (h : s.remove id = .ok s') : s'.Derived := by
  obtain ⟨-, rfl⟩ := remove_eq_ok h
  exact derived_refreshDerived _

theorem setText_derived {s s' : Scene} {id : Nat} {text : String}
    (h : s.setText id text = .ok s') : s'.Derived := by
  rcases setText_eq_ok h with ⟨-, hremove⟩ | ⟨-, r, -, rfl⟩
  · exact remove_derived hremove
  · exact derived_refreshDerived _

/-- An edit that comes is followed by a search for landmarks. -/
theorem Renewed.applyEdit {s : Scene} {state : Scene × Bool} (h : Renewed s state.1) (id : Nat) :
    Renewed s (Scene.applyEdit state id).1 := by
  unfold Scene.applyEdit
  split
  · exact h
  · dsimp only
    split
    · next s' hs => exact .inl (setText_derived hs)
    · -- a text that is refused has waited in vain
      exact h.imp (fun hderived => hderived.of_graphs rfl rfl rfl rfl rfl)
        fun hkept => ⟨hkept.intercepts, hkept.intersections, hkept.text⟩

/-- **Every action finds the landmarks anew or keeps them,** and the texts with them. -/
theorem renewed_act (s : Scene) (a : Action) : Renewed s (s.act a) := by
  -- whatever moves the view ends with a search
  have hview : ∀ t : Scene, Renewed s t.refreshAll := fun t => .inl (derived_refreshAll t)
  cases a with
  | add text => exact .inl (derived_refreshDerived _)
  | addColored text color => exact .inl (derived_refreshDerived _)
  | remove id => exact .after fun _ hs => .inl (remove_derived hs)
  | setText id text => exact .after fun _ hs => .inl (setText_derived hs)
  | editText id text now =>
    -- the text only waits
    refine .after fun _ hs => ?_
    obtain ⟨-, rfl⟩ := editText_eq_ok hs
    exact .inr ⟨rfl, rfl, fun _ => rfl⟩
  | clear => exact .inl ⟨rfl, rfl⟩
  | loadSheet sheet =>
    exact .inl (List.foldlRecOn (Sheet.read sheet) Scene.add (motive := Derived) ⟨rfl, rfl⟩
      fun _ _ _ _ => derived_refreshDerived _)
  | setColor id color =>
    refine .after fun _ hs => .inr ?_
    rw [setColor_eq_ok hs]
    exact .updateRow s id fun _ => rfl
  | setParameter id name value now =>
    refine .after fun _ hs => .inr ⟨?_, ?_, (SameTexts.setParameter hs).text⟩
    · -- the landmarks wait for the slider to come to rest
      obtain ⟨-, parameters, -, -, rfl⟩ := setParameter_eq_ok hs
      rfl
    · obtain ⟨-, parameters, -, -, rfl⟩ := setParameter_eq_ok hs
      rfl
  | setParameterRange id name min max =>
    refine .after fun _ hs => ?_
    obtain ⟨-, p, q, -, -, -, rfl⟩ := setParameterRange_eq_ok hs
    exact .inr (.updateRow s id fun _ => rfl)
  | beginDrag => exact .inr ⟨rfl, rfl, fun _ => rfl⟩
  | endDrag => exact hview _
  | pan dx dy =>
    rw [act, pan]
    split
    · -- while it is dragged, a view moves without a search
      exact .inr ⟨rfl, rfl, fun _ => rfl⟩
    · exact hview _
  | zoomAt px py inward now => exact .inr ⟨rfl, rfl, fun _ => rfl⟩
  | zoom inward => exact hview _
  | resetView => exact hview _
  | setView camera => exact hview _
  | resize width height => exact hview _
  | refreshEquation id => exact .inr (.refreshEquation s id)
  | refreshAll => exact hview s
  | contour id => exact .inr (.contour s id)
  | snapshot => exact .inr (.prepared s)
  | togglePin x y => exact .inr (.togglePin s x y)
  | click px py =>
    rw [act, click]
    split
    · exact .refl s
    · exact .inr (.togglePin s _ _)
  | clearPins => exact .inr ⟨rfl, rfl, fun _ => rfl⟩
  | applyEdits now =>
    refine List.foldlRecOn (s.edits.due now) Scene.applyEdit
      (motive := fun state => Renewed s state.1) ?_ fun _ hstate id _ => hstate.applyEdit id
    exact .inr ⟨rfl, rfl, fun _ => rfl⟩
  | applyRefreshes now =>
    rw [act, applyRefreshes]
    split
    · -- nothing is due
      exact .inr ⟨rfl, rfl, fun _ => rfl⟩
    · exact .inl (derived_refreshDerived _)
  | applyScroll now =>
    rw [act, applyScroll]
    split
    · exact hview _
    · exact .refl s
  | receive => exact .inr (.receive s)
  | finish ticket left =>
    rw [act, finish]
    split
    · exact .inr ⟨rfl, rfl, fun _ => rfl⟩
    · exact .refl s

/-- **The landmarks of a scene were found in a scene of its past** in which the same
equations stood. -/
theorem exists_origin (settings : Settings Float) (width height : Float)
    (actions : List Action) : ∃ before, before <+: actions ∧
      let t := (Scene.new settings width height).run before
      t.Derived ∧ KeepsLandmarks t ((Scene.new settings width height).run actions) := by
  -- the induction is on the last action
  induction actions using List.reverseRecOn with
  | nil => exact ⟨[], List.prefix_rfl, ⟨rfl, rfl⟩, .refl _⟩
  | append_singleton actions a ih =>
    rcases renewed_act ((Scene.new settings width height).run actions) a with hderived | hkept
    · -- the landmarks are those of the end
      refine ⟨actions ++ [a], List.prefix_rfl, ?_, .refl _⟩
      rw [run_append]
      exact hderived
    · -- they are those of an earlier scene, and no text has changed since
      obtain ⟨before, hprefix, hderived, hsame⟩ := ih
      refine ⟨before, hprefix.trans (List.prefix_append actions [a]), hderived, ?_⟩
      rw [run_append]
      exact hsame.trans hkept

end CurvePlot.Scene
