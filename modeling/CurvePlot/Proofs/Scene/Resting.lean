import CurvePlot.Proofs.Scene.Sketch
import CurvePlot.Proofs.Scene.Waiting
/-!
# Sliders that are set and come to rest

What a scene says of one equation, contours aside, is the sketch of its row and whether a
refresh waits for it (`state?`). To refresh the equation and to set a slider of it are functions
of this state (`Row.refreshed`, `slid`), and the states of the other equations stay. So a row of
such operations, one for each equation, is the function at each state (`state?_foldl`).

When the refreshes that wait are delivered, it is those equations that are refreshed whose
sliders were set, however often they were (`state?_applyRefreshes`).
-/

namespace CurvePlot

/-- The row as a refresh leaves it, contours aside. -/
def Row.refreshed (settings : Settings Float) (view : Viewport Float) (r : Row) : Row :=
  if r.equation.isExplicit then
    { r with strip := some (Scene.refreshedStrip settings view r.equation r.strip) }
  else r

/-- The sketch of a row is refreshed like the row. -/
theorem Row.sketch_refreshed (settings : Settings Float) (view : Viewport Float) (r : Row) :
    (r.refreshed settings view).sketch = r.sketch.refreshed settings view := by
  unfold refreshed
  show _ = if r.equation.isExplicit then _ else _
  split <;> rfl

/-- What is no graph is left as it is. -/
theorem Row.refreshed_of_not_explicit {settings : Settings Float} {view : Viewport Float} {r : Row}
    (h : r.equation.isExplicit = false) : r.refreshed settings view = r :=
  if_neg (Bool.eq_false_iff.mp h)

/-- The strip of a graph is refreshed. -/
theorem Row.refreshed_of_explicit {settings : Settings Float} {view : Viewport Float} {r : Row}
    (h : r.equation.isExplicit = true) : r.refreshed settings view =
      { r with strip := some (Scene.refreshedStrip settings view r.equation r.strip) } :=
  if_pos h

namespace Scene

/-- **The state of an equation:** its row but for the contour, and whether it waits for a
refresh. -/
def state? (s : Scene) (i : Nat) : Option (Row × Bool) :=
  (s.rows.get? i).map fun r => (r.sketch, s.refreshes.isPending i)

/-- What is around the equations is the same. -/
structure SameSurroundings (s s' : Scene) : Prop where
  /-- The settings are the same. -/
  settings : s'.settings = s.settings
  /-- The same part of the plane is seen. -/
  viewport : s'.viewport = s.viewport
  /-- The view is dragged in both or in none. -/
  dragging : s'.dragging = s.dragging
  /-- It settles at the same moment. -/
  scrollSettlesAt : s'.scrollSettlesAt = s.scrollSettlesAt
  /-- The same edits wait. -/
  edits : s'.edits = s.edits
  /-- The same points are pinned. -/
  pins : s'.pins = s.pins
  /-- Refreshes wait equally long. -/
  refreshDelay : s'.refreshes.delay = s.refreshes.delay
  /-- The equations have the same numbers. -/
  keys : s'.rows.keys = s.rows.keys

variable {s s' s'' : Scene} {id : Nat}

namespace SameSurroundings

/-- A scene has its own surroundings. -/
theorem refl (s : Scene) : SameSurroundings s s := ⟨rfl, rfl, rfl, rfl, rfl, rfl, rfl, rfl⟩

/-- What has the same surroundings twice has the same. -/
theorem trans (h : SameSurroundings s s') (h' : SameSurroundings s' s'') :
    SameSurroundings s s'' where
  settings := h'.settings.trans h.settings
  viewport := h'.viewport.trans h.viewport
  dragging := h'.dragging.trans h.dragging
  scrollSettlesAt := h'.scrollSettlesAt.trans h.scrollSettlesAt
  edits := h'.edits.trans h.edits
  pins := h'.pins.trans h.pins
  refreshDelay := h'.refreshDelay.trans h.refreshDelay
  keys := h'.keys.trans h.keys

/-- So it is in scenes with the same sketch. -/
theorem of_sameSketch (h : SameSketch s s') : SameSurroundings s s' := by
  have hkeys := h.rows.keys
  obtain ⟨rows, jobs, rfl, -⟩ := h
  exact ⟨rfl, rfl, rfl, rfl, rfl, rfl, rfl, hkeys⟩

/-- Whether the view moves is a matter of the surroundings. -/
theorem isInteracting (h : SameSurroundings s s') : s'.isInteracting = s.isInteracting := by
  rw [Scene.isInteracting, Scene.isInteracting, h.dragging, h.scrollSettlesAt]

/-- Bringing an equation up to date leaves its surroundings. -/
theorem refreshEquation (s : Scene) (id : Nat) : SameSurroundings s (s.refreshEquation id) := by
  cases hr : s.rows.get? id with
  | none =>
    rw [refreshEquation_of_none hr]
    exact refl s
  | some r =>
    obtain ⟨f, jobs, heq, -, -⟩ := refreshEquation_eq hr
    rw [heq]
    -- the row is written, and keeps its number
    exact ⟨rfl, rfl, rfl, rfl, rfl, rfl, rfl, Keyed.keys_modify s.rows id f⟩

/-- So does bringing some equations up to date. -/
theorem foldl_refreshEquation (s : Scene) (ids : List Nat) :
    SameSurroundings s (ids.foldl Scene.refreshEquation s) :=
  List.foldlRecOn ids Scene.refreshEquation (motive := SameSurroundings s) (refl s)
    fun t ht id _ => ht.trans (refreshEquation t id)

/-- The landmarks are not part of the surroundings. -/
theorem refreshDerived (h : SameSurroundings s s') : SameSurroundings s s'.refreshDerived :=
  ⟨h.settings, h.viewport, h.dragging, h.scrollSettlesAt, h.edits, h.pins, h.refreshDelay, h.keys⟩

/-- Redrawing everything leaves the surroundings. -/
theorem refreshAll (s : Scene) : SameSurroundings s s.refreshAll :=
  (foldl_refreshEquation s s.rows.keys).refreshDerived

/-- To set a slider leaves the surroundings, whether or not it is refused. -/
theorem setParameter (s : Scene) (id : Nat) (name : Char) (value : Float) (now : Nat) :
    SameSurroundings s (s.act (.setParameter id name value now)) := by
  refine after_of (refl s) fun s' hs => ?_
  obtain ⟨-, parameters, -, -, rfl⟩ := setParameter_eq_ok hs
  exact ⟨rfl, rfl, rfl, rfl, rfl, rfl, rfl, Keyed.keys_modify s.rows id _⟩

/-- To deliver the refreshes leaves the surroundings. -/
theorem applyRefreshes (s : Scene) (now : Nat) : SameSurroundings s (s.applyRefreshes now).1 := by
  have hdelivered : SameSurroundings s { s with refreshes := s.refreshes.deliver now } :=
    ⟨rfl, rfl, rfl, rfl, rfl, rfl, rfl, rfl⟩
  unfold Scene.applyRefreshes
  dsimp only
  split
  · exact hdelivered
  · exact (hdelivered.trans (foldl_refreshEquation _ _)).refreshDerived

end SameSurroundings

/-- The actions that come from sliders, from time and from fine passes. -/
def Action.isQuiet : Action → Bool
  | .setParameter _ _ _ _ | .applyEdits _ | .applyRefreshes _ | .applyScroll _ | .receive
  | .finish _ _ => true
  | _ => false

/-- Without a text that waits there is nothing to set. -/
theorem applyEdits_of_none (h : s.edits.deadlines = Keyed.empty) (now : Nat) :
    s.applyEdits now = (s, false) := by
  have hnone : ∀ d : Debouncer, d.deadlines = Keyed.empty → d.due now = [] ∧ d.deliver now = d := by
    rintro ⟨delay, _⟩ rfl
    exact ⟨rfl, rfl⟩
  obtain ⟨hdue, hdeliver⟩ := hnone s.edits h
  rw [applyEdits, hdue, hdeliver]
  rfl

/-- Where nothing scrolls, nothing settles. -/
theorem applyScroll_of_none (h : s.scrollSettlesAt = none) (now : Nat) :
    s.applyScroll now = (s, false) := by
  rw [applyScroll, h]
  rfl

/-- **Where no text waits and nothing scrolls, quiet actions leave the surroundings** as they
are. -/
theorem SameSurroundings.act (hedits : s.edits.deadlines = Keyed.empty)
    (hscroll : s.scrollSettlesAt = none) {a : Action} (ha : a.isQuiet = true) :
    SameSurroundings s (s.act a) := by
  cases a with
  | setParameter id name value now => exact setParameter s id name value now
  | applyEdits now =>
    rw [Scene.act, applyEdits_of_none hedits]
    exact refl s
  | applyRefreshes now => exact applyRefreshes s now
  | applyScroll now =>
    rw [Scene.act, applyScroll_of_none hscroll]
    exact refl s
  | receive => exact of_sameSketch (.receive s)
  | finish ticket left => exact of_sameSketch (.finish s ticket left)
  -- the other actions are not quiet
  | _ => cases ha

/-- **Quiet actions leave the surroundings,** however many there are. -/
theorem SameSurroundings.run (hedits : s.edits.deadlines = Keyed.empty)
    (hscroll : s.scrollSettlesAt = none) {actions : List Action}
    (hquiet : ∀ a ∈ actions, a.isQuiet = true) : SameSurroundings s (s.run actions) := by
  induction actions generalizing s with
  | nil => exact refl s
  | cons a actions ih =>
    have hact := SameSurroundings.act hedits hscroll (hquiet a List.mem_cons_self)
    -- still no text waits and nothing scrolls, since both are part of the surroundings
    refine hact.trans (ih ?_ ?_ fun b hb => hquiet b (List.mem_cons_of_mem a hb))
    · rw [hact.edits, hedits]
    · rw [hact.scrollSettlesAt, hscroll]

/-! ### One operation for each equation -/

/-- The state of an equation can be told from the sketch. -/
theorem state?_of_sameSketch (h : SameSketch s s') (i : Nat) : s'.state? i = s.state? i := by
  obtain ⟨rows, jobs, rfl, hrows⟩ := h
  have hi := congrArg (Option.map fun r => (r, s.refreshes.isPending i)) (hrows i)
  rwa [Option.map_map, Option.map_map] at hi

/-- **A row of operations, one for each of some equations,** does to the state of each what its
operation does. -/
theorem state?_foldl {I : Scene → Prop} {step : Scene → Nat → Scene}
    {f : Row × Bool → Row × Bool} (hI : ∀ s id, I s → I (step s id))
    (hstep : ∀ s id i, I s → (step s id).state? i =
      if i = id then (s.state? i).map f else s.state? i)
    (h : I s) {ids : List Nat} (hids : ids.Nodup) (i : Nat) :
    (ids.foldl step s).state? i = if i ∈ ids then (s.state? i).map f else s.state? i := by
  induction ids generalizing s with
  | nil => rfl
  | cons id ids ih =>
    -- the first equation does not come again, so what was done to it stays
    obtain ⟨hid, hids⟩ := List.nodup_cons.mp hids
    rw [List.foldl_cons, ih (hI s id h) hids, hstep s id i h]
    by_cases hi : i = id
    · subst hi
      simp [hid]
    · simp [hi]

/-- What is done to all equations is done to each. -/
theorem state?_foldl_keys {I : Scene → Prop} {step : Scene → Nat → Scene}
    {f : Row × Bool → Row × Bool} (hI : ∀ s id, I s → I (step s id))
    (hstep : ∀ s id i, I s → (step s id).state? i =
      if i = id then (s.state? i).map f else s.state? i)
    (h : I s) (i : Nat) : (s.rows.keys.foldl step s).state? i = (s.state? i).map f := by
  rw [state?_foldl hI hstep h s.rows.nodup_keys]
  split
  · rfl
  · next hi =>
    -- an equation that is not there has no state
    have hnone : s.rows.get? i = none := by
      rw [Option.eq_none_iff_forall_ne_some]
      exact fun r hr => hi (Keyed.mem_keys.mpr ⟨r, hr⟩)
    rw [state?, hnone]
    rfl

/-! ### Refreshing -/

/-- **Refreshing an equation** is done to its state. -/
theorem state?_refreshEquation (s : Scene) (id i : Nat) : (s.refreshEquation id).state? i =
    if i = id then
      (s.state? i).map fun x => (x.1.refreshed s.settings s.viewport, x.2)
    else s.state? i := by
  cases hr : s.rows.get? id with
  | none =>
    rw [refreshEquation_of_none hr]
    -- the equation is not there, and neither is its state
    split
    · next hi =>
      rw [state?, hi, hr]
      rfl
    · rfl
  | some r =>
    have hstate : s.state? id = some (r.sketch, s.refreshes.isPending id) := by
      rw [state?, hr, Option.map_some]
    -- what is no graph is left as it is, contours aside
    have hother (hsame : SameSketch s (s.refreshEquation id))
        (hexplicit : r.equation.isExplicit = false) : (s.refreshEquation id).state? i =
        if i = id then (s.state? i).map fun x => (x.1.refreshed s.settings s.viewport, x.2)
        else s.state? i := by
      rw [state?_of_sameSketch hsame]
      split
      · next hi =>
        rw [hi, hstate, Option.map_some, ← Row.sketch_refreshed,
          Row.refreshed_of_not_explicit hexplicit]
      · rfl
    have hgraph (hexplicit : r.equation.isExplicit = true) :
        (s.updateRow id fun r' => { r' with
          strip := some (refreshedStrip s.settings s.viewport r.equation r.strip) }).state? i =
        if i = id then (s.state? i).map fun x => (x.1.refreshed s.settings s.viewport, x.2)
        else s.state? i := by
      rw [updateRow, state?]
      dsimp only
      split
      · next hi =>
        rw [hi, hstate, Keyed.get?_modify_self, hr, Option.map_some, Option.map_some,
          Option.map_some, ← Row.sketch_refreshed, Row.refreshed_of_explicit hexplicit]
      · -- the row of another equation
        next hi => rw [Keyed.get?_modify_of_ne s.rows _ hi, state?]
    cases hclass : r.equation.classification with
    | point x y =>
      refine hother ?_ (by rw [Equation.isExplicit, hclass]; rfl)
      unfold refreshEquation
      rw [hr]
      simp only [hclass]
      exact .refl s
    | implicit =>
      exact hother (.refreshEquation_implicit hr hclass) (by rw [Equation.isExplicit, hclass]; rfl)
    | explicit | linearInY =>
      rw [← hgraph (by rw [Equation.isExplicit, hclass]; rfl)]
      unfold refreshEquation
      rw [hr]
      simp only [hclass]

/-- Under a scene's settings and view, to refresh some equations is done to their states. -/
theorem state?_foldl_refreshEquation (s : Scene) {ids : List Nat} (hids : ids.Nodup) (i : Nat) :
    (ids.foldl refreshEquation s).state? i =
      if i ∈ ids then (s.state? i).map fun x => (x.1.refreshed s.settings s.viewport, x.2)
      else s.state? i := by
  -- the view and the settings are the same throughout
  refine state?_foldl (I := SameSurroundings s) (fun t id ht => ht.trans (.refreshEquation t id))
    (fun t id i ht => ?_) (.refl s) hids i
  rw [state?_refreshEquation, ht.settings, ht.viewport]

/-- **Refreshing all** is done to every state. -/
theorem state?_refreshAll (s : Scene) (i : Nat) : s.refreshAll.state? i =
    (s.state? i).map fun x => (x.1.refreshed s.settings s.viewport, x.2) := by
  refine state?_foldl_keys (I := SameSurroundings s)
    (fun t id ht => ht.trans (.refreshEquation t id)) (fun t id i ht => ?_) (.refl s) i
  rw [state?_refreshEquation, ht.settings, ht.viewport]

/-! ### Sliders -/

/-- The state of an equation after a slider of a letter was moved, which is as before if the
equation has no such letter. -/
def slid (name : Char) (value : Float) (x : Row × Bool) : Row × Bool :=
  match x.1.equation.parameters.set? name value with
  | none => x
  | some parameters =>
    ({ x.1 with equation := { x.1.equation with parameters := parameters } }.evict, true)

/-- **Setting a slider** is done to the state of its equation. -/
theorem state?_setParameter (s : Scene) (id : Nat) (name : Char) (value : Float) (now i : Nat) :
    (s.act (.setParameter id name value now)).state? i =
      if i = id then (s.state? i).map (slid name value) else s.state? i := by
  -- an equation that is not there or does not have the letter refuses
  have hrefused {e : SceneError} (he : s.setParameter id name value now = .error e)
      (hslid : (s.state? id).map (slid name value) = s.state? id) :
      (s.act (.setParameter id name value now)).state? i =
        if i = id then (s.state? i).map (slid name value) else s.state? i := by
    rw [act, he, after]
    split
    · next hi => rw [hi, hslid]
    · rfl
  cases hr : s.rows.get? id with
  | none =>
    have hrow : s.row id = .error (.unknownEquation id) := by rw [row, hr]
    refine hrefused (e := .unknownEquation id) ?_ ?_
    · rw [Scene.setParameter, hrow]
    · rw [state?, hr]
      rfl
  | some r =>
    have hrow : s.row id = .ok r := row_eq_ok.mpr hr
    cases hset : r.equation.parameters.set? name value with
    | none =>
      have hslid (b : Bool) : slid name value (r.sketch, b) = (r.sketch, b) := by
        unfold slid Row.sketch
        simp only [hset]
      refine hrefused (e := .unknownParameter id name) ?_ ?_
      · rw [Scene.setParameter, hrow]
        simp only [hset]
      · rw [state?, hr, Option.map_some, Option.map_some, hslid]
    | some parameters =>
      have hslid (b : Bool) : slid name value (r.sketch, b) =
          ({ r with equation := { r.equation with parameters := parameters } }.evict, true) := by
        unfold slid Row.sketch
        simp only [hset]
        rfl
      rw [act, Scene.setParameter, hrow]
      simp only [hset]
      unfold after updateRow state?
      dsimp only
      by_cases hi : i = id
      · rw [if_pos hi, hi, Keyed.get?_modify_self, hr, Debouncer.isPending_schedule_self,
          Option.map_some, Option.map_some, Option.map_some, Option.map_some, hslid]
        rfl
      · rw [if_neg hi, Keyed.get?_modify_of_ne s.rows _ hi, Debouncer.isPending_schedule_of_ne hi]

/-! ### Coming to rest -/

/-- The state of an equation when its slider has come to rest, if it was moved. -/
def rested (settings : Settings Float) (view : Viewport Float) (x : Row × Bool) : Row × Bool :=
  (if x.2 then x.1.refreshed settings view else x.1, false)

/-- What waits afterwards is what was not due. -/
theorem refreshes_applyRefreshes (s : Scene) (now : Nat) :
    (s.applyRefreshes now).1.refreshes = s.refreshes.deliver now := by
  unfold applyRefreshes
  dsimp only
  split
  · rfl
  · exact (Refreshed.foldl_refreshEquation _ _).refreshDerived.refreshes

/-- **When all that waits is due,** the equations that waited are refreshed, and none waits any
more. -/
theorem state?_applyRefreshes {now : Nat}
    (hdue : ∀ i, s.refreshes.isPending i = true → i ∈ s.refreshes.due now) (i : Nat) :
    (s.applyRefreshes now).1.state? i = (s.state? i).map (rested s.settings s.viewport) := by
  let delivered : Scene := { s with refreshes := s.refreshes.deliver now }
  -- since all that waits is due, to be due is to wait
  have hpending : s.refreshes.isPending i = decide (i ∈ s.refreshes.due now) := by
    rw [Bool.eq_iff_iff, decide_eq_true_iff]
    refine ⟨hdue i, fun hi => ?_⟩
    obtain ⟨moment, hget, -⟩ := Debouncer.mem_due.mp hi
    rw [Debouncer.isPending, Keyed.contains, hget]
    rfl
  have hover : (s.refreshes.deliver now).isPending i = false :=
    Debouncer.isPending_deliver_of_due (hdue i)
  have hnodup : (s.refreshes.due now).Nodup := by
    refine List.Nodup.sublist ?_ s.refreshes.deadlines.nodup_keys
    exact List.Sublist.map _ List.filter_sublist
  -- the landmarks do not show in the state, and where nothing is due the fold is empty
  have hstate : (s.applyRefreshes now).1.state? i =
      ((s.refreshes.due now).foldl refreshEquation delivered).state? i := by
    unfold applyRefreshes
    dsimp only
    split
    · next hnone => rw [List.isEmpty_iff.mp hnone]; rfl
    · rfl
  rw [hstate, state?_foldl_refreshEquation delivered hnodup]
  -- both sides are read off the row, if there is one
  cases hr : s.rows.get? i with
  | none => simp [state?, delivered, hr]
  | some r =>
    have hdelivered : delivered.state? i = some (r.sketch, false) := by
      rw [state?, hr, hover, Option.map_some]
    rw [hdelivered, state?, hr, hpending]
    by_cases hi : i ∈ s.refreshes.due now <;> simp [hi, rested, delivered]

end Scene

end CurvePlot
