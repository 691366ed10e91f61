import CurvePlot.Proofs.Scene.Served
import CurvePlot.Proofs.Scene.Steady
/-!
# No landmark is left behind

The landmarks are found anew by some operations only. Yet whenever the view rests and no
slider does, they are those that would be found now (`run_derived`).

They depend on the view and on the graphs alone (`Derived.of_graphs`). An operation either
finds them anew when it is done, or it changes no graph, or it ends in a state in which the
view moves or a slider waits; and the operations that lead out of such a state all find them
anew. The one that needs more is the refresh of a single equation, which writes a strip and
stops there. It changes nothing because the strip was steady (`Settled.refreshEquation`).
-/

namespace CurvePlot

/-- Rewriting an entry does not show where what is looked at stays. -/
theorem Keyed.filterMap_values_modify {κ α β : Type} [Key κ] (m : Keyed κ α) {k : κ}
    {f : α → α} {g : α → Option β} (h : ∀ v, m.get? k = some v → g (f v) = g v) :
    (m.modify k f).values.filterMap g = m.values.filterMap g := by
  -- entry by entry: the one that is rewritten shows the same, and the others are left alone
  simp only [Keyed.values, Keyed.modify, Keyed.mapValues, List.map_map, List.filterMap_map]
  refine List.filterMap_congr fun e he => ?_
  simp only [Function.comp_apply]
  split
  · next hk =>
    refine h e.2 (Keyed.get?_eq_some_iff.mpr ?_)
    rw [← Key.rank_inj hk]
    exact he
  · rfl

/-- The graph of a row, if landmarks are sought on it. -/
def Row.graph? (r : Row) : Option (Float → Float) := if r.isCurve then some r.valueAt else none

/-- Rows with the same graph show it alike. -/
theorem Row.SameGraph.graph?_eq {r r' : Row} (h : r.SameGraph r') : r'.graph? = r.graph? := by
  have hvalue : r'.valueAt = r.valueAt := by
    funext x
    unfold Row.valueAt
    rw [h.strip, h.curve]
  unfold Row.graph? Row.isCurve
  rw [h.isValid, h.isExplicit, hvalue]

namespace Scene

/-! ### What the landmarks depend on -/

/-- The graphs on which landmarks are sought. -/
def graphs (s : Scene) : List (Float → Float) := s.rows.values.filterMap Row.graph?

/-- **The landmarks are those that would be found now.** -/
def Derived (s : Scene) : Prop :=
  s.intercepts = s.refreshDerived.intercepts ∧ s.intersections = s.refreshDerived.intersections

/-- The graphs are those of the rows that are curves. -/
theorem map_valueAt_filter_isCurve (rows : List Row) :
    (rows.filter Row.isCurve).map Row.valueAt = rows.filterMap Row.graph? := by
  induction rows with
  | nil => rfl
  | cons r rows ih =>
    rw [List.filter_cons, List.filterMap_cons]
    unfold Row.graph?
    split
    · exact congrArg (r.valueAt :: ·) ih
    · exact ih

/-- Pairs are formed before or after a change of the list. -/
theorem pairs_map {α β : Type} (f : α → β) (as : List α) :
    pairs (as.map f) = (pairs as).map fun p => (f p.1, f p.2) := by
  induction as with
  | nil => rfl
  | cons a as ih => simp [pairs, ih]

section

variable (s : Scene)

/-- The intercepts are found on the graphs, -/
theorem intercepts_refreshDerived : s.refreshDerived.intercepts =
    s.graphs.flatMap fun f =>
      (Landmark.yIntercept? s.viewport.rangeX.1 s.viewport.rangeX.2 f).toList ++
        Landmark.xIntercepts s.viewport.rangeX.1 s.viewport.rangeX.2
          (s.settings.rootStep / s.viewport.scale) f := by
  rw [graphs, ← map_valueAt_filter_isCurve, List.flatMap_map]
  rfl

/-- and the intersections on pairs of them. -/
theorem intersections_refreshDerived : s.refreshDerived.intersections =
    (pairs s.graphs).flatMap fun p =>
      Landmark.intersections s.viewport.rangeX.1 s.viewport.rangeX.2
        (s.settings.rootStep / s.viewport.scale) p.1 p.2 := by
  rw [graphs, ← map_valueAt_filter_isCurve, pairs_map, List.flatMap_map]
  rfl

/-- What was just found is what would be found now. -/
theorem derived_refreshDerived : s.refreshDerived.Derived := ⟨rfl, rfl⟩

end

variable {s s' : Scene} {id : Nat}

/-- **The landmarks depend on the view and on the graphs alone.** -/
theorem Derived.of_graphs (h : s.Derived) (hsettings : s'.settings = s.settings)
    (hviewport : s'.viewport = s.viewport) (hgraphs : s'.graphs = s.graphs)
    (hintercepts : s'.intercepts = s.intercepts)
    (hintersections : s'.intersections = s.intersections) : s'.Derived := by
  unfold Derived at h ⊢
  rw [intercepts_refreshDerived, intersections_refreshDerived] at h ⊢
  rw [hsettings, hviewport, hgraphs, hintercepts, hintersections]
  exact h

/-- Rewriting a row leaves the graphs alone if it keeps the graph of this row. -/
theorem graphs_updateRow {f : Row → Row}
    (hf : ∀ r, s.rows.get? id = some r → r.SameGraph (f r)) :
    (s.updateRow id f).graphs = s.graphs :=
  s.rows.filterMap_values_modify fun r hr => (hf r hr).graph?_eq

/-! ### Every action -/

/-- **What holds between actions:** steady rows but for those whose slider is not at rest,
and if all are at rest, the landmarks of these rows. -/
structure Settled (s : Scene) : Prop where
  /-- Only the row of a slider that is not at rest may have another strip than it should. -/
  steady : s.Steady s.Pending
  /-- At rest, the landmarks are right. -/
  derived : s.isInteracting = false → (∀ id, ¬s.Pending id) → s.Derived

namespace Settled

/-- A new scene has no rows and no landmarks. -/
theorem start (settings : Settings Float) (width height : Float) :
    (Scene.new settings width height).Settled where
  steady _ _ _ hr := by cases hr
  derived _ _ := ⟨rfl, rfl⟩

/-- What finds the landmarks anew has to care about the rows only. -/
theorem of_steady (h : s.Steady s.Pending) : s.refreshDerived.Settled where
  steady := h
  derived _ _ := derived_refreshDerived s

/-- While the view moves nothing is asked of the strips and landmarks. -/
theorem of_interacting (h : s.isInteracting = true) : s.Settled where
  steady := .of_interacting h
  derived hrest := by
    rw [h] at hrest
    cases hrest

/-- **A refresh of all settles everything.** -/
theorem refreshAll (s : Scene) : s.refreshAll.Settled where
  steady := .refreshAll s
  derived _ _ := derived_refreshDerived _

/-- A row may change anything but its graph. -/
theorem updateRow (h : s.Settled) (id : Nat) {f : Row → Row}
    (hf : ∀ r, s.rows.get? id = some r → r.SameGraph (f r)) : (s.updateRow id f).Settled where
  steady := h.steady.updateRow id hf
  derived hrest hnone := (h.derived hrest hnone).of_graphs rfl rfl (graphs_updateRow hf) rfl rfl

/-- Refreshing an equation leaves the sliders as they wait. -/
theorem pending_refreshEquation (s : Scene) (id : Nat) :
    (s.refreshEquation id).Pending = s.Pending := by
  funext i
  unfold Pending
  rw [(Refreshed.refreshEquation s id).refreshes]

/-- **To refresh an equation of a settled scene changes no graph.** -/
theorem refreshEquation (h : s.Settled) (id : Nat) : (s.refreshEquation id).Settled where
  steady := by
    rw [pending_refreshEquation]
    exact (h.steady.refreshEquation id).mono fun i hi => hi.1
  derived hrest hnone := by
    rw [pending_refreshEquation] at hnone
    rw [(Refreshed.refreshEquation s id).isInteracting] at hrest
    have hderived := h.derived hrest hnone
    cases hr : s.rows.get? id with
    | none =>
      rw [refreshEquation_of_none hr]
      exact hderived
    | some r =>
      -- the strip that is written is the one that was kept
      have hsteady := h.steady hrest id r hr (hnone id)
      obtain ⟨f, jobs, heq, hequation, hstrip⟩ := refreshEquation_eq hr
      have hsame : r.SameGraph (f r) := by
        refine ⟨by rw [hequation], by rw [hequation], by rw [hequation], hstrip.trans ?_⟩
        split
        · next hexplicit => exact (hsteady hexplicit).symm
        · rfl
      have hgraphs : (s.updateRow id f).graphs = s.graphs := by
        refine graphs_updateRow fun r' hr' => ?_
        obtain rfl : r = r' := Option.some.inj (hr.symm.trans hr')
        exact hsame
      rw [heq]
      exact hderived.of_graphs rfl rfl hgraphs rfl rfl

/-! ### Editing -/

/-- A row that was written is refreshed, and the landmarks are found anew. -/
theorem refreshWritten (h : s.Steady fun i => s.Pending i ∨ i = id) :
    (s.refreshEquation id).refreshDerived.Settled := by
  refine of_steady ?_
  rw [pending_refreshEquation]
  exact (h.refreshEquation id).mono fun i hi => hi.1.resolve_right hi.2

/-- A new row is refreshed, and nothing else is touched. -/
theorem addColored (h : s.Settled) (text : String) (color : Color) :
    (s.addColored text color).Settled := by
  -- all other rows are as they were
  have hwritten := h.steady.rewrite s.nextId
    (s.rows.insert s.nextId (Row.fresh (s.compile text) color))
    fun i hi => Keyed.get?_insert_of_ne s.rows _ hi
  exact refreshWritten (s := { s with
    rows := s.rows.insert s.nextId (Row.fresh (s.compile text) color)
    nextId := s.nextId + 1 }) hwritten

/-- The next color has nothing to do with landmarks. -/
theorem add (h : s.Settled) (text : String) : (s.add text).Settled :=
  addColored (s := { s with palette := s.palette.advance }) ⟨h.steady, h.derived⟩ text _

/-- Row after row, a sheet is added. -/
theorem foldl_add (h : s.Settled) (texts : List String) : (texts.foldl Scene.add s).Settled :=
  List.foldlRecOn texts Scene.add (motive := Settled) h fun _ hs text _ => add hs text

/-- A cleared scene has neither rows nor landmarks. -/
theorem clear (s : Scene) : s.clear.Settled where
  steady _ _ _ hr := by cases hr
  derived _ _ := ⟨rfl, rfl⟩

/-- Removing a row ends with new landmarks. -/
theorem remove (h : s.Settled) (hs : s.remove id = .ok s') : s'.Settled := by
  obtain ⟨-, rfl⟩ := remove_eq_ok hs
  refine of_steady fun hrest i r hr hi => ?_
  -- the row is gone, and its wait with it
  have hne : i ≠ id := by
    rintro rfl
    rw [Keyed.get?_erase_self] at hr
    cases hr
  rw [Keyed.get?_erase_of_ne s.rows hne] at hr
  refine h.steady hrest i r hr fun hpending => hi ?_
  exact (Debouncer.isPending_cancel_of_ne hne).trans hpending

/-- So does setting a text. -/
theorem setText (h : s.Settled) {text : String} (hs : s.setText id text = .ok s') :
    s'.Settled := by
  rcases setText_eq_ok hs with ⟨-, hremove⟩ | ⟨-, r, -, rfl⟩
  · exact h.remove hremove
  have hwritten := h.steady.rewrite id (s.rows.insert id (r.retyped (s.compile text)))
    fun i hi => Keyed.get?_insert_of_ne s.rows _ hi
  -- the wait of the equation is ended, and the others go on
  -- the row that was written may be out of date until it is refreshed
  refine refreshWritten (Steady.mono hwritten fun i hi => ?_)
  by_cases hid : i = id
  · exact .inr hid
  · exact .inl ((Debouncer.isPending_cancel_of_ne hid).trans (hi.resolve_right hid))

/-- **A slider that moves leaves the landmarks as they are** until it is at rest. -/
theorem setParameter (h : s.Settled) {name : Char} {value : Float} {now : Nat}
    (hs : s.setParameter id name value now = .ok s') : s'.Settled := by
  obtain ⟨-, parameters, -, -, rfl⟩ := setParameter_eq_ok hs
  have hwritten := h.steady.rewrite id
    (s.rows.modify id fun r =>
      Row.evict { r with equation := { r.equation with parameters := parameters } })
    fun i hi => Keyed.get?_modify_of_ne s.rows _ hi
  refine ⟨Steady.mono hwritten fun i hi => ?_, fun _ hnone => absurd ?_ (hnone id)⟩
  · -- every other slider that waits has waited before
    by_cases hid : i = id
    · subst hid
      exact Debouncer.isPending_schedule_self
    · exact (Debouncer.isPending_schedule_of_ne hid).trans (hi.resolve_right hid)
  · -- this slider waits now
    exact Debouncer.isPending_schedule_self

/-- The range of a slider is not seen by the curve. -/
theorem setParameterRange (h : s.Settled) {name : Char} {min max : Float}
    (hs : s.setParameterRange id name min max = .ok s') : s'.Settled := by
  obtain ⟨r, p, q, hr, hp, hq, rfl⟩ := setParameterRange_eq_ok hs
  refine h.updateRow id fun r' hr' => ⟨rfl, rfl, ?_, rfl⟩
  obtain rfl : r = r' := Option.some.inj (hr.symm.trans hr')
  have hvalue := Parameter.Table.value_insert hp (Parameter.value_setRange hq)
  -- the curve reads values only
  funext x
  simp only [Equation.curve, hvalue]
  rfl

/-- A color is not seen by the curve either. -/
theorem setColor (h : s.Settled) {color : Color} (hs : s.setColor id color = .ok s') :
    s'.Settled := by
  rw [setColor_eq_ok hs]
  exact h.updateRow id fun _ _ => ⟨rfl, rfl, rfl, rfl⟩

/-- A text that is only typed changes nothing yet. -/
theorem editText (h : s.Settled) {text : String} {now : Nat}
    (hs : s.editText id text now = .ok s') : s'.Settled := by
  obtain ⟨-, rfl⟩ := editText_eq_ok hs
  exact ⟨h.steady, h.derived⟩

/-! ### Moving the view and looking -/

/-- Dragging leaves a moving view, or everything is refreshed. -/
theorem pan (s : Scene) (dx dy : Float) : (s.pan dx dy).Settled := by
  unfold Scene.pan
  dsimp only
  split
  · next hmoves => exact of_interacting hmoves
  · exact refreshAll _

/-- A contour is no graph. -/
theorem contour (h : s.Settled) (id : Nat) : (s.contour id).1.Settled := by
  unfold Scene.contour
  split
  · exact h
  · split
    · exact h
    · exact h.updateRow id fun _ _ => ⟨rfl, rfl, rfl, rfl⟩

/-- A snapshot traces contours only. -/
theorem prepared (h : s.Settled) : s.prepared.Settled :=
  List.foldlRecOn s.rows.keys (fun s id => (Scene.contour s id).1) (motive := Settled) h
    fun _ hs id _ => contour hs id

/-- Pins are no landmarks that are sought. -/
theorem togglePin (h : s.Settled) (x y : Float) : (s.togglePin x y).1.Settled := by
  unfold Scene.togglePin
  dsimp only
  split
  · exact ⟨h.steady, h.derived⟩
  · exact ⟨h.steady, h.derived⟩

/-- A click sets pins only. -/
theorem click (h : s.Settled) (px py : Float) : (s.click px py).1.Settled := by
  unfold Scene.click
  split
  · exact h
  · exact h.togglePin _ _

/-! ### The parts of a poll -/

/-- An edit that is due is set, or it is dropped. -/
theorem applyEdit {state : Scene × Bool} (h : state.1.Settled) (id : Nat) :
    (Scene.applyEdit state id).1.Settled := by
  unfold Scene.applyEdit
  split
  · exact h
  · dsimp only
    have hwaiting : Settled { state.1 with pendingText := state.1.pendingText.erase id } :=
      ⟨h.steady, h.derived⟩
    split
    · next s' hs => exact Settled.setText hwaiting hs
    · exact hwaiting

/-- So it is for all that are due. -/
theorem applyEdits (h : s.Settled) (now : Nat) : (s.applyEdits now).1.Settled :=
  List.foldlRecOn (s.edits.due now) Scene.applyEdit (motive := fun state => state.1.Settled)
    ⟨h.steady, h.derived⟩ fun _ hstate id _ => applyEdit hstate id

/-- **When a slider comes to rest, the landmarks are found anew.** -/
theorem applyRefreshes (h : s.Settled) (now : Nat) : (s.applyRefreshes now).1.Settled := by
  let delivered : Scene := { s with refreshes := s.refreshes.deliver now }
  have hothers : ∀ i, s.Pending i → i ∉ s.refreshes.due now → delivered.Pending i :=
    fun i hi hdue => (Debouncer.isPending_deliver_of_not_due hdue).trans hi
  unfold Scene.applyRefreshes
  dsimp only
  split
  · -- no slider was due, so the same ones wait
    next hnone =>
    have hnot : ∀ i, i ∉ s.refreshes.due now := by
      intro i
      rw [List.isEmpty_iff.mp hnone]
      exact List.not_mem_nil
    refine ⟨Steady.mono h.steady fun i hi => hothers i hi (hnot i), fun hrest hall => ?_⟩
    exact h.derived hrest fun i hi => hall i (hothers i hi (hnot i))
  · -- the rows that were due are refreshed, and the others wait as before
    have hdelivered : delivered.Steady s.Pending := h.steady
    have hsame := Refreshed.foldl_refreshEquation delivered (s.refreshes.due now)
    refine of_steady ((hdelivered.foldl_refreshEquation _).mono fun i hi => ?_)
    show ((s.refreshes.due now).foldl Scene.refreshEquation delivered).refreshes.isPending i = true
    rw [hsame.refreshes]
    exact hothers i hi.1 hi.2

/-- When a scroll has rested, everything is refreshed. -/
theorem applyScroll (h : s.Settled) (now : Nat) : (s.applyScroll now).1.Settled := by
  unfold Scene.applyScroll
  split
  · exact refreshAll _
  · exact h

/-- A result that is kept is not seen by the graphs. -/
theorem installOne {state : Scene × Bool} (h : state.1.Settled) (f : Finished) :
    (Scene.installOne state f).1.Settled := by
  unfold Scene.installOne
  split
  · exact h.updateRow f.id fun _ _ => ⟨rfl, rfl, rfl, rfl⟩
  · exact h

/-- Taking a result writes contours only. -/
theorem receive (h : s.Settled) : s.receive.Settled :=
  List.foldlRecOn s.jobs.receive.2.toList Scene.installOne (motive := fun state => state.1.Settled)
    ⟨h.steady, h.derived⟩ fun _ hstate f _ => installOne hstate f

/-- The end of a pass is seen on the board only. -/
theorem finish (h : s.Settled) (ticket : Nat) (left : Option (List (Segment Float))) :
    (s.finish ticket left).Settled := by
  unfold Scene.finish
  split
  · exact ⟨h.steady, h.derived⟩
  · exact h

/-- **Whatever happens, the scene stays settled.** -/
theorem act (s : Scene) (a : Action) (h : s.Settled) : (s.act a).Settled := by
  cases a with
  | add text => exact h.add text
  | addColored text color => exact h.addColored text color
  | remove id => exact after_of h fun _ hs => h.remove hs
  | setText id text => exact after_of h fun _ hs => h.setText hs
  | editText id text now => exact after_of h fun _ hs => h.editText hs
  | clear => exact clear s
  | loadSheet sheet => exact (clear s).foldl_add _
  | setColor id color => exact after_of h fun _ hs => h.setColor hs
  | setParameter id name value now => exact after_of h fun _ hs => h.setParameter hs
  | setParameterRange id name min max => exact after_of h fun _ hs => h.setParameterRange hs
  | beginDrag => exact of_interacting rfl
  | endDrag => exact refreshAll _
  | pan dx dy => exact pan s dx dy
  | zoomAt px py inward now => exact of_interacting (Bool.or_true _)
  | zoom inward => exact refreshAll _
  | resetView => exact refreshAll _
  | setView camera => exact refreshAll _
  | resize width height => exact refreshAll _
  | refreshEquation id => exact h.refreshEquation id
  | refreshAll => exact refreshAll s
  | contour id => exact h.contour id
  | snapshot => exact h.prepared
  | togglePin x y => exact h.togglePin x y
  | click px py => exact h.click px py
  | clearPins => exact ⟨h.steady, h.derived⟩
  | applyEdits now => exact h.applyEdits now
  | applyRefreshes now => exact h.applyRefreshes now
  | applyScroll now => exact h.applyScroll now
  | receive => exact h.receive
  | finish ticket left => exact h.finish ticket left

end Settled

/-- **No landmark of an older state is left behind.** After any run, whenever the view rests
and no slider waits to, the intercepts and the intersections that are kept are those that
would be found now. -/
theorem run_derived (settings : Settings Float) (width height : Float) (actions : List Action) :
    let s := (Scene.new settings width height).run actions
    s.isInteracting = false → (∀ id, s.refreshes.isPending id = false) →
      s.intercepts = s.refreshDerived.intercepts ∧
        s.intersections = s.refreshDerived.intersections := by
  intro s hrest hnone
  have hsettled : s.Settled := run_induction Settled.act (.start settings width height) actions
  refine hsettled.derived hrest fun id hpending => ?_
  exact Bool.false_ne_true ((hnone id).symm.trans hpending)

/-- Two lines are added, the plane is moved, and one of them is refreshed once more. -/
theorem run_derived_lines :
    let s := (Scene.new .standard 800.0 600.0).run
      [.add "x", .add "1-x", .pan 50.0 0.0, .refreshEquation 1]
    s.isInteracting = false ∧ (∀ id, s.refreshes.isPending id = false) ∧
      s.intercepts = s.refreshDerived.intercepts ∧
      s.intersections = s.refreshDerived.intersections := by
  intro s
  let first : Scene := Scene.new .standard 800.0 600.0
  -- an equation that is added neither moves the view nor waits
  have hadd : ∀ (t : Scene) (text : String), (t.add text).isInteracting = t.isInteracting ∧
      (t.add text).refreshes = t.refreshes := by
    intro t text
    let added : Scene := { t with
      palette := t.palette.advance
      rows := t.rows.insert t.nextId (Row.fresh (t.compile text) t.palette.upcoming)
      nextId := t.nextId + 1 }
    have hsame : Refreshed added (t.add text) :=
      (Refreshed.refreshEquation added t.nextId).refreshDerived
    exact ⟨hsame.isInteracting, hsame.refreshes⟩
  let both : Scene := (first.add "x").add "1-x"
  let moved : Scene := { both with viewport := both.viewport.pan 50.0 0.0 }
  have hbothRests : both.isInteracting = false :=
    (hadd (first.add "x") "1-x").1.trans (hadd first "x").1
  have hbothWaits : both.refreshes = first.refreshes :=
    (hadd (first.add "x") "1-x").2.trans (hadd first "x").2
  have hmoved : s = moved.refreshAll.refreshEquation 1 :=
    congrArg (fun t : Scene => t.refreshEquation 1) (if_neg (Bool.not_eq_true _ ▸ hbothRests))
  have hrefreshed : Refreshed moved s :=
    hmoved ▸ (Refreshed.refreshAll moved).trans (Refreshed.refreshEquation moved.refreshAll 1)
  have hrests : s.isInteracting = false := hrefreshed.isInteracting.trans hbothRests
  have hnone : ∀ id, s.refreshes.isPending id = false := by
    intro id
    rw [hrefreshed.refreshes]
    exact congrArg (fun d : Debouncer => d.isPending id) hbothWaits
  exact ⟨hrests, hnone, run_derived .standard 800.0 600.0 _ hrests hnone⟩

end Scene

end CurvePlot
