import CurvePlot.Proofs.Debouncer
import CurvePlot.Proofs.Scene.Operations
import CurvePlot.Proofs.Scene.Steady
import Mathlib.Data.List.Induction
/-!
# What waits was asked for

An edit waits because a text was typed, and a refresh because a slider was moved. No other
action makes anything wait (`NoNewWait.act`), whatever it delivers, calls off or draws anew. So
from a scene in which nothing waits, every wait is one that was asked for since
(`Asked.run`), and it ends when the one who asked was told that it would.
-/

namespace CurvePlot.Scene

variable {s s' s'' : Scene} {id : Nat}

/-- **Nothing begins to wait,** and what goes on waiting does so until the same moment. -/
structure NoNewWait (s s' : Scene) : Prop where
  /-- A text that waits has waited before, -/
  pendingText : ∀ i text, s'.pendingText.get? i = some text → s.pendingText.get? i = some text
  /-- and so has an edit, until the same moment, -/
  edit : ∀ i moment, s'.edits.deadlines.get? i = some moment →
    s.edits.deadlines.get? i = some moment
  /-- and a refresh. -/
  refresh : ∀ i moment, s'.refreshes.deadlines.get? i = some moment →
    s.refreshes.deadlines.get? i = some moment
  /-- Edits wait as long as before they are due. -/
  editDelay : s'.edits.delay = s.edits.delay
  /-- So do refreshes. -/
  refreshDelay : s'.refreshes.delay = s.refreshes.delay

namespace NoNewWait

/-- Where nothing about the waits has changed, none is new. -/
theorem of_eq (hpending : s'.pendingText = s.pendingText) (hedits : s'.edits = s.edits)
    (hrefreshes : s'.refreshes = s.refreshes) : NoNewWait s s' where
  pendingText i text h := by rwa [hpending] at h
  edit i moment h := by rwa [hedits] at h
  refresh i moment h := by rwa [hrefreshes] at h
  editDelay := by rw [hedits]
  refreshDelay := by rw [hrefreshes]

/-- Doing nothing makes nothing wait, -/
theorem refl (s : Scene) : NoNewWait s s := of_eq rfl rfl rfl

/-- nor does one thing after another, if neither does. -/
theorem trans (h : NoNewWait s s') (h' : NoNewWait s' s'') : NoNewWait s s'' where
  pendingText i text hi := h.pendingText i text (h'.pendingText i text hi)
  edit i moment hi := h.edit i moment (h'.edit i moment hi)
  refresh i moment hi := h.refresh i moment (h'.refresh i moment hi)
  editDelay := h'.editDelay.trans h.editDelay
  refreshDelay := h'.refreshDelay.trans h.refreshDelay

/-! ### Bringing up to date and looking -/

/-- Finding the landmarks makes nothing wait. -/
theorem refreshDerived (h : NoNewWait s s') : NoNewWait s s'.refreshDerived :=
  h.trans (of_eq rfl rfl rfl)

/-- Refreshing an equation may begin a pass, but nothing waits for that. -/
theorem refreshEquation (s : Scene) (i : Nat) : NoNewWait s (s.refreshEquation i) := by
  cases hr : s.rows.get? i with
  | none =>
    rw [refreshEquation_of_none hr]
    exact refl s
  | some r =>
    obtain ⟨f, jobs, heq, -, -⟩ := refreshEquation_eq hr
    rw [heq]
    exact of_eq rfl rfl rfl

/-- So it is for a row of equations -/
theorem foldl_refreshEquation (s : Scene) (ids : List Nat) :
    NoNewWait s (ids.foldl Scene.refreshEquation s) :=
  List.foldlRecOn ids Scene.refreshEquation (motive := NoNewWait s) (refl s)
    fun t ht i _ => ht.trans (refreshEquation t i)

/-- and for all of them. -/
theorem refreshAll (s : Scene) : NoNewWait s s.refreshAll :=
  (foldl_refreshEquation s s.rows.keys).refreshDerived

/-- A change of the view is followed by a refresh. -/
theorem view (hpending : s'.pendingText = s.pendingText) (hedits : s'.edits = s.edits)
    (hrefreshes : s'.refreshes = s.refreshes) : NoNewWait s s'.refreshAll :=
  (of_eq hpending hedits hrefreshes).trans (refreshAll s')

/-- Dragging the view is followed by a refresh or by none, and in neither case anything waits. -/
theorem pan (s : Scene) (dx dy : Float) : NoNewWait s (s.pan dx dy) := by
  unfold Scene.pan
  dsimp only
  split
  · exact of_eq rfl rfl rfl
  · exact view rfl rfl rfl

/-- To trace a preview is to write a contour. -/
theorem contour (s : Scene) (i : Nat) : NoNewWait s (s.contour i).1 := by
  unfold Scene.contour
  split
  · exact refl s
  · split
    · exact refl s
    · exact of_eq rfl rfl rfl

/-- A snapshot traces previews only. -/
theorem prepared (s : Scene) : NoNewWait s s.prepared :=
  List.foldlRecOn s.rows.keys (fun s id => (s.contour id).1) (motive := NoNewWait s) (refl s)
    fun t ht i _ => ht.trans (contour t i)

/-- A pin is set at once -/
theorem togglePin (s : Scene) (x y : Float) : NoNewWait s (s.togglePin x y).1 := by
  unfold Scene.togglePin
  dsimp only
  split <;> exact of_eq rfl rfl rfl

/-- and so is one that was clicked. -/
theorem click (s : Scene) (px py : Float) : NoNewWait s (s.click px py).1 := by
  unfold Scene.click
  split
  · exact refl s
  · exact togglePin s _ _

/-! ### Editing -/

/-- A new row is drawn at once. -/
theorem addColored (s : Scene) (text : String) (color : Color) :
    NoNewWait s (s.addColored text color) := by
  let added : Scene := { s with
    rows := s.rows.insert s.nextId (Row.fresh (s.compile text) color)
    nextId := s.nextId + 1 }
  have hadded : NoNewWait s added := of_eq rfl rfl rfl
  exact (hadded.trans (refreshEquation added s.nextId)).refreshDerived

/-- So is one with the next color. -/
theorem add (s : Scene) (text : String) : NoNewWait s (s.add text) := by
  let advanced : Scene := { s with palette := s.palette.advance }
  have hadvanced : NoNewWait s advanced := of_eq rfl rfl rfl
  exact hadvanced.trans (addColored advanced text s.palette.upcoming)

/-- Nothing waits in a cleared scene. -/
theorem clear (s : Scene) : NoNewWait s s.clear where
  pendingText i text h := by cases h
  edit i moment h := by cases h
  refresh i moment h := by cases h
  editDelay := rfl
  refreshDelay := rfl

/-- The rows of a sheet are added to a cleared scene. -/
theorem loadSheet (s : Scene) (sheet : String) : NoNewWait s (s.loadSheet sheet).1 :=
  List.foldlRecOn (Sheet.read sheet) Scene.add (motive := NoNewWait s) (clear s)
    fun t ht text _ => ht.trans (add t text)

/-- A removed row takes its waits with it. -/
theorem remove (hs : s.remove id = .ok s') : NoNewWait s s' := by
  obtain ⟨-, rfl⟩ := remove_eq_ok hs
  -- all three are taken away by the number of the row
  exact refreshDerived
    { pendingText := fun _ _ h => Keyed.get?_of_get?_erase h
      edit := fun _ _ h => Keyed.get?_of_get?_erase h
      refresh := fun _ _ h => Keyed.get?_of_get?_erase h
      editDelay := rfl
      refreshDelay := rfl }

/-- A text that is set is drawn at once, and a refresh that waited is called off. -/
theorem setText {text : String} (hs : s.setText id text = .ok s') : NoNewWait s s' := by
  rcases setText_eq_ok hs with ⟨-, hremove⟩ | ⟨-, r, -, rfl⟩
  · -- the row is written and the refresh is called off before the equation is refreshed
    exact remove hremove
  let written : Scene := { s with
    rows := s.rows.insert id (r.retyped (s.compile text))
    jobs := s.jobs.cancel id
    refreshes := s.refreshes.cancel id }
  have hwritten : NoNewWait s written :=
    { refl s with
      refresh := fun _ _ h => Keyed.get?_of_get?_erase h
      refreshDelay := rfl }
  exact (hwritten.trans (refreshEquation written id)).refreshDerived

/-- A color needs no drawing, -/
theorem setColor {color : Color} (hs : s.setColor id color = .ok s') : NoNewWait s s' := by
  rw [setColor_eq_ok hs]
  exact of_eq rfl rfl rfl

/-- and neither does the range of a slider. -/
theorem setParameterRange {name : Char} {min max : Float}
    (hs : s.setParameterRange id name min max = .ok s') : NoNewWait s s' := by
  obtain ⟨-, p, q, -, -, -, rfl⟩ := setParameterRange_eq_ok hs
  exact of_eq rfl rfl rfl

/-! ### The parts of a poll -/

/-- An edit that is due is taken from those that wait, whether or not it can be set. -/
theorem applyEdit (state : Scene × Bool) (i : Nat) :
    NoNewWait state.1 (Scene.applyEdit state i).1 := by
  unfold Scene.applyEdit
  split
  · exact refl state.1
  · dsimp only
    have htaken : NoNewWait state.1
        { state.1 with pendingText := state.1.pendingText.erase i } :=
      { refl state.1 with pendingText := fun _ _ h => Keyed.get?_of_get?_erase h }
    split
    · next s' hs => exact htaken.trans (setText hs)
    · exact htaken

/-- Delivering the edits takes waits away and begins none. -/
theorem applyEdits (s : Scene) (now : Nat) : NoNewWait s (s.applyEdits now).1 := by
  refine List.foldlRecOn (s.edits.due now) Scene.applyEdit
    (motive := fun state => NoNewWait s state.1) ?_ fun state hstate i _ =>
      hstate.trans (applyEdit state i)
  exact { refl s with
    edit := fun _ _ h => (Debouncer.get?_deliver_eq_some_iff.mp h).1
    editDelay := rfl }

/-- So does delivering the refreshes. -/
theorem applyRefreshes (s : Scene) (now : Nat) : NoNewWait s (s.applyRefreshes now).1 := by
  have hdelivered : NoNewWait s { s with refreshes := s.refreshes.deliver now } :=
    { refl s with
      refresh := fun _ _ h => (Debouncer.get?_deliver_eq_some_iff.mp h).1
      refreshDelay := rfl }
  unfold Scene.applyRefreshes
  dsimp only
  split
  · exact hdelivered
  · exact (hdelivered.trans (foldl_refreshEquation _ _)).refreshDerived

/-- A scroll that has rested is followed by a refresh. -/
theorem applyScroll (s : Scene) (now : Nat) : NoNewWait s (s.applyScroll now).1 := by
  unfold Scene.applyScroll
  split
  · exact view rfl rfl rfl
  · exact refl s

/-- A result is written to its row, if this still wants it. -/
theorem installOne (state : Scene × Bool) (f : Finished) :
    NoNewWait state.1 (Scene.installOne state f).1 := by
  unfold Scene.installOne
  split
  · exact of_eq rfl rfl rfl
  · exact refl state.1

/-- Taking a result begins no wait. -/
theorem receive (s : Scene) : NoNewWait s s.receive := by
  refine List.foldlRecOn s.jobs.receive.2.toList Scene.installOne
    (motive := fun state => NoNewWait s state.1) ?_ fun state hstate f _ =>
      hstate.trans (installOne state f)
  exact of_eq rfl rfl rfl

/-- The end of a pass begins none either. -/
theorem finish (s : Scene) (ticket : Nat) (left : Option (List (Segment Float))) :
    NoNewWait s (s.finish ticket left) := by
  unfold Scene.finish
  split
  · exact of_eq rfl rfl rfl
  · exact refl s

end NoNewWait

/-- The actions that ask for something to be done later. -/
def Action.Asks : Action → Prop
  | .editText _ _ _ | .setParameter _ _ _ _ => True
  | _ => False

/-- **No other action makes anything wait.** -/
theorem NoNewWait.act (s : Scene) {a : Action} (ha : ¬a.Asks) : NoNewWait s (s.act a) := by
  -- an operation that is refused leaves the scene alone; the others are taken one by one
  cases a with
  | editText | setParameter => exact absurd trivial ha
  | add text => exact .add s text
  | addColored text color => exact .addColored s text color
  | remove id => exact after_of (.refl s) fun _ hs => .remove hs
  | setText id text => exact after_of (.refl s) fun _ hs => .setText hs
  | clear => exact .clear s
  | loadSheet sheet => exact .loadSheet s sheet
  | setColor id color => exact after_of (.refl s) fun _ hs => .setColor hs
  | setParameterRange id name min max => exact after_of (.refl s) fun _ hs => .setParameterRange hs
  | beginDrag => exact .of_eq rfl rfl rfl
  | endDrag => exact .view rfl rfl rfl
  | pan dx dy => exact .pan s dx dy
  | zoomAt px py inward now => exact .of_eq rfl rfl rfl
  | zoom inward => exact .view rfl rfl rfl
  | resetView => exact .view rfl rfl rfl
  | setView camera => exact .view rfl rfl rfl
  | resize width height => exact .view rfl rfl rfl
  | refreshEquation id => exact .refreshEquation s id
  | refreshAll => exact .refreshAll s
  | contour id => exact .contour s id
  | snapshot => exact .prepared s
  | togglePin x y => exact .togglePin s x y
  | click px py => exact .click s px py
  | clearPins => exact .of_eq rfl rfl rfl
  | applyEdits now => exact .applyEdits s now
  | applyRefreshes now => exact .applyRefreshes s now
  | applyScroll now => exact .applyScroll s now
  | receive => exact .receive s
  | finish ticket left => exact .finish s ticket left

/-- **Everything that waits was asked for** by one of the actions: a text that was typed, and
a slider that was moved. It waits for as long as it was told then. -/
structure Asked (actions : List Action) (s : Scene) : Prop where
  /-- A text that waits was typed. -/
  pendingText : ∀ i text, s.pendingText.get? i = some text → ∃ now, .editText i text now ∈ actions
  /-- An edit waits from the moment when its text was typed. -/
  edit : ∀ i moment, s.edits.deadlines.get? i = some moment →
    ∃ text now, .editText i text now ∈ actions ∧ moment = now + s.edits.delay
  /-- A refresh waits from the moment when a slider was moved. -/
  refresh : ∀ i moment, s.refreshes.deadlines.get? i = some moment →
    ∃ name value now, .setParameter i name value now ∈ actions ∧ moment = now + s.refreshes.delay

namespace Asked

variable {actions : List Action}

/-- What was asked for stays so, where nothing new waits and more has been done. -/
theorem mono (h : Asked actions s) (hs : NoNewWait s s') {more : List Action}
    (hmore : ∀ a ∈ actions, a ∈ more) : Asked more s' where
  pendingText i text hi := by
    obtain ⟨now, hnow⟩ := h.pendingText i text (hs.pendingText i text hi)
    exact ⟨now, hmore _ hnow⟩
  edit i moment hi := by
    obtain ⟨text, now, hnow, hmoment⟩ := h.edit i moment (hs.edit i moment hi)
    exact ⟨text, now, hmore _ hnow, hs.editDelay ▸ hmoment⟩
  refresh i moment hi := by
    obtain ⟨name, value, now, hnow, hmoment⟩ := h.refresh i moment (hs.refresh i moment hi)
    exact ⟨name, value, now, hmore _ hnow, hs.refreshDelay ▸ hmoment⟩

/-- **A text that is typed waits because it was typed,** in place of one that waited. -/
theorem editText (h : Asked actions s) {text : String} {now : Nat}
    (hs : s.editText id text now = .ok s') : Asked (actions ++ [.editText id text now]) s' := by
  have hmono := h.mono (.refl s) fun a ha => List.mem_append_left [.editText id text now] ha
  have hlast : Action.editText id text now ∈ actions ++ [.editText id text now] :=
    List.mem_append_right _ List.mem_cons_self
  obtain ⟨-, rfl⟩ := editText_eq_ok hs
  -- the text and the moment of the one equation are new, and the others are as they were
  refine { hmono with pendingText := fun i text' hi => ?_, edit := fun i moment hi => ?_ }
  · by_cases hid : i = id
    · subst hid
      rw [Keyed.get?_insert_self] at hi
      obtain rfl := Option.some.inj hi
      exact ⟨now, hlast⟩
    · rw [Keyed.get?_insert_of_ne s.pendingText text hid] at hi
      exact hmono.pendingText i text' hi
  · by_cases hid : i = id
    · subst hid
      rw [Debouncer.get?_schedule_self] at hi
      exact ⟨text, now, hlast, (Option.some.inj hi).symm⟩
    · rw [Debouncer.get?_schedule_of_ne hid] at hi
      exact hmono.edit i moment hi

/-- **A refresh waits because a slider was moved.** -/
theorem setParameter (h : Asked actions s) {name : Char} {value : Float} {now : Nat}
    (hs : s.setParameter id name value now = .ok s') :
    Asked (actions ++ [.setParameter id name value now]) s' := by
  have hmono := h.mono (.refl s) fun a ha =>
    List.mem_append_left [.setParameter id name value now] ha
  have hlast : Action.setParameter id name value now ∈
      actions ++ [.setParameter id name value now] := List.mem_append_right _ List.mem_cons_self
  obtain ⟨-, parameters, -, -, rfl⟩ := setParameter_eq_ok hs
  refine { hmono with refresh := fun i moment hi => ?_ }
  by_cases hid : i = id
  · -- this wait has just begun
    subst hid
    rw [Debouncer.get?_schedule_self] at hi
    exact ⟨name, value, now, hlast, (Option.some.inj hi).symm⟩
  · rw [Debouncer.get?_schedule_of_ne hid] at hi
    exact hmono.refresh i moment hi

/-- After every action, what waits was asked for by it or before it. -/
theorem act (h : Asked actions s) (a : Action) : Asked (actions ++ [a]) (s.act a) := by
  have hmore : ∀ b ∈ actions, b ∈ actions ++ [a] := fun _ hb => List.mem_append_left [a] hb
  by_cases ha : a.Asks
  · cases a with
    | editText id text now =>
      exact after_of (h.mono (.refl s) hmore) fun _ hs => h.editText hs
    | setParameter id name value now =>
      exact after_of (h.mono (.refl s) hmore) fun _ hs => h.setParameter hs
    | _ => exact ha.elim
  · exact h.mono (.act s ha) hmore

/-- **What waits after a run in whose beginning nothing waited was asked for in it.** -/
theorem run (h : Asked [] s) (actions : List Action) : Asked actions (s.run actions) := by
  -- by induction on the run, its last action being the one that was done last
  induction actions using List.reverseRecOn with
  | nil => exact h
  | append_singleton actions a ih =>
    rw [run_append]
    exact ih.act a

end Asked

end CurvePlot.Scene
