import CurvePlot.Proofs.Scene.Served
import CurvePlot.Proofs.Scene.Steady
/-!
# Fine contours under the view that is shown

A fine contour may be drawn under views near to the one that it was traced under, so in
general the fine contours of a scene were traced under many views. They were all traced
under the view that is shown, and all awaited passes trace under it (`Aimed`), once nothing
but previews was kept when the view was last changed (`Aimed.of_tended`), and as long as the
view is left alone (`Aimed.act`).

Views are compared as numbers are, so that a zero of the one may be a negative zero of the
other. This is how the board tells whether the pass that is awaited will do, and it makes no
difference to what the pass finds (`Contour.fine_of_beq`).

In a scene that is aimed and tended and waits for nothing, the contour of each implicit curve
is what the fine pass finds under the view that is shown (`exists_fine`).
-/

namespace CurvePlot.Scene

/-- **Whatever is fine is so under the view that is shown,** and so will be whatever is
awaited. -/
structure Aimed (s : Scene) : Prop where
  /-- The view equals itself, so it has no number in it that is none. -/
  view : (s.viewport == s.viewport) = true
  /-- What is awaited is traced under it, -/
  inFlight : ∀ i x, s.jobs.inFlight.get? i = some x → (x.viewport == s.viewport) = true
  /-- and what is fine was. -/
  fine : ∀ i r c, s.rows.get? i = some r → r.contour = some c → c.quality = .fine →
    (c.viewport == s.viewport) = true

variable {s s' : Scene} {id : Nat} {r : Row}

namespace Aimed

/-- Only the view, the rows and the awaited passes matter. -/
theorem congr (h : s.Aimed) (hviewport : s'.viewport = s.viewport) (hrows : s'.rows = s.rows)
    (hinFlight : s'.jobs.inFlight = s.jobs.inFlight) : s'.Aimed where
  view := by
    rw [hviewport]
    exact h.view
  inFlight i x hx := by
    rw [hviewport]
    exact h.inFlight i x (hinFlight ▸ hx)
  fine i r c hr := by
    rw [hviewport]
    exact h.fine i r c (hrows ▸ hr)

/-- **What an operation on one equation has to show:** that its new contour, if it is fine, and
its new pass are under the view. -/
theorem step (h : s.Aimed) (ha : Apart id s s')
    (hflight : ∀ x, s'.jobs.inFlight.get? id = some x → (x.viewport == s.viewport) = true)
    (hfine : ∀ r c, s'.rows.get? id = some r → r.contour = some c → c.quality = .fine →
      (c.viewport == s.viewport) = true) : s'.Aimed where
  view := by
    rw [ha.viewport]
    exact h.view
  inFlight i x hx := by
    rw [ha.viewport]
    by_cases hi : i = id
    · exact hflight x (hi ▸ hx)
    · exact h.inFlight i x ((ha.inFlight i hi).symm.trans hx)
  fine i r c hr hc hquality := by
    rw [ha.viewport]
    by_cases hi : i = id
    · exact hfine r c (hi ▸ hr) hc hquality
    · exact h.fine i r c ((ha.rows i hi).symm.trans hr) hc hquality

/-- The contour of a row may stay, or go, or be a preview. -/
theorem updateRow (h : s.Aimed) (id : Nat) {f : Row → Row}
    (hf : ∀ r c, s.rows.get? id = some r → (f r).contour = some c → c.quality = .fine →
      r.contour = some c) : (s.updateRow id f).Aimed := by
  refine h.step (.updateRow s id f) (fun x hx => h.inFlight id x hx) fun r c hr hc hquality => ?_
  rw [Scene.updateRow, Keyed.get?_modify_self] at hr
  obtain ⟨old, hold, rfl⟩ := Option.map_eq_some_iff.mp hr
  exact h.fine id old c hold (hf old c hold hc hquality) hquality

/-- A row may be rewritten without a contour, and its pass called off. -/
theorem rewrite (h : s.Aimed) (id : Nat) (rows : Keyed Nat Row)
    (hother : ∀ i, i ≠ id → rows.get? i = s.rows.get? i)
    (hnew : ∀ r, rows.get? id = some r → r.contour = none) :
    Aimed { s with rows := rows, jobs := s.jobs.cancel id } := by
  have hcancel := JobBoard.get?_inFlight_cancel s.jobs id
  refine h.step ⟨rfl, rfl, rfl, hother, fun i hi => (hcancel i).trans (if_neg hi)⟩
    (fun x hx => ?_) fun r c hr hc _ => ?_
  · -- the pass of the equation was called off
    have hnone : none = some x := ((hcancel id).trans (if_pos rfl)).symm.trans hx
    cases hnone
  · -- the row has lost its contour
    rw [hnew r hr] at hc
    cases hc

/-! ### Bringing up to date -/

/-- Landmarks are not aimed at anything. -/
theorem refreshDerived (h : s.Aimed) : s.refreshDerived.Aimed := h.congr rfl rfl rfl

/-- A pass is begun under the view that is shown. -/
theorem requestFine (h : s.Aimed) (id : Nat) (eq : Equation) : (s.requestFine id eq).Aimed := by
  refine h.step (.requestFine s id eq) (fun x hx => ?_) fun r c hr hc hquality => ?_
  · unfold Scene.requestFine at hx
    split at hx
    · -- a pass for this view is awaited already
      exact h.inFlight id x hx
    · -- the new pass is for the view that is shown
      have hspawn := JobBoard.get?_inFlight_spawn s.jobs id id eq s.viewport s.settings
      rw [if_pos rfl] at hspawn
      rw [← Option.some.inj (hspawn.symm.trans hx)]
      exact h.view
  · obtain ⟨jobs, hjobs⟩ := requestFine_eq s id eq
    rw [hjobs] at hr
    exact h.fine id r c hr hc hquality

/-- What stands in for a fine contour is a preview, or what is there. -/
theorem standIn_cases (s : Scene) (r : Row) :
    (s.standIn r).quality = .preview ∨ r.contour = some (s.standIn r) := by
  unfold Scene.standIn
  split
  · next c hc => exact .inr (Option.eq_some_of_filter_eq_some hc)
  · exact .inl rfl

/-- Refreshing an equation puts in a contour that is no finer than what was there. -/
theorem refreshEquation (h : s.Aimed) (id : Nat) : (s.refreshEquation id).Aimed := by
  unfold Scene.refreshEquation
  split
  · exact h
  · next r hr =>
    split
    · exact h
    · exact h.updateRow id fun _ _ _ hc _ => hc
    · exact h.updateRow id fun _ _ _ hc _ => hc
    · split
      · exact h
      · -- what stands in is fine only if it is what was kept
        refine requestFine (h.updateRow id fun r' c hr' hc hquality => ?_) id r.equation
        obtain rfl : r = r' := Option.some.inj (hr.symm.trans hr')
        obtain rfl := Option.some.inj hc
        refine (standIn_cases s r).resolve_left fun hpreview => ?_
        rw [hquality] at hpreview
        cases hpreview

/-- Row after row stays aimed, -/
theorem foldl_refreshEquation (h : s.Aimed) (ids : List Nat) :
    (ids.foldl Scene.refreshEquation s).Aimed :=
  List.foldlRecOn ids Scene.refreshEquation (motive := Aimed) h fun _ hs id _ => hs.refreshEquation id

/-- and so do all of them. -/
theorem refreshAll (h : s.Aimed) : s.refreshAll.Aimed :=
  (h.foldl_refreshEquation s.rows.keys).refreshDerived

/-! ### Editing -/

/-- A new row has no contour yet. -/
theorem addColored (h : s.Aimed) (text : String) (color : Color) :
    (s.addColored text color).Aimed := by
  refine refreshDerived (refreshEquation ?_ s.nextId)
  let written : Scene := { s with
    rows := s.rows.insert s.nextId (Row.fresh (s.compile text) color)
    nextId := s.nextId + 1 }
  -- but for the new row, nothing is different
  have hapart : Apart s.nextId s written :=
    ⟨rfl, rfl, rfl, fun i hi => Keyed.get?_insert_of_ne s.rows _ hi, fun _ _ => rfl⟩
  refine h.step hapart (fun x hx => h.inFlight s.nextId x hx) fun r c hr hc _ => ?_
  have hnew := (Keyed.get?_insert_self s.rows s.nextId _).symm.trans hr
  rw [← Option.some.inj hnew] at hc
  cases hc

/-- The color does not matter. -/
theorem add (h : s.Aimed) (text : String) : (s.add text).Aimed := by
  have hpalette : Aimed { s with palette := s.palette.advance } := h.congr rfl rfl rfl
  exact hpalette.addColored text s.palette.upcoming

/-- A cleared scene has neither contours nor passes. -/
theorem clear (h : s.Aimed) : s.clear.Aimed where
  view := h.view
  inFlight _ _ hx := by cases hx
  fine _ _ _ hr := by cases hr

/-- A sheet is read row by row. -/
theorem loadSheet (h : s.Aimed) (sheet : String) : (s.loadSheet sheet).1.Aimed :=
  List.foldlRecOn (Sheet.read sheet) Scene.add (motive := Aimed) h.clear
    fun _ hs text _ => hs.add text

/-- Removing a row takes its contour and its pass away. -/
theorem remove (h : s.Aimed) (hs : s.remove id = .ok s') : s'.Aimed := by
  obtain ⟨-, rfl⟩ := remove_eq_ok hs
  refine (h.rewrite id (s.rows.erase id) (fun i hi => Keyed.get?_erase_of_ne s.rows hi)
    fun r hr => ?_).congr rfl rfl rfl
  rw [Keyed.get?_erase_self] at hr
  cases hr

/-- Setting a text does too, and then the row is refreshed. -/
theorem setText (h : s.Aimed) {text : String} (hs : s.setText id text = .ok s') : s'.Aimed := by
  rcases setText_eq_ok hs with ⟨-, hremove⟩ | ⟨-, r, -, rfl⟩
  · exact h.remove hremove
  have hwritten := h.rewrite id (s.rows.insert id (r.retyped (s.compile text)))
    (fun i hi => Keyed.get?_insert_of_ne s.rows _ hi) fun r' hr' => by
      rw [Keyed.get?_insert_self] at hr'
      rw [← Option.some.inj hr']
      rfl
  refine refreshDerived (refreshEquation ?_ id)
  exact hwritten.congr rfl rfl rfl

/-- A slider that is moved gives up the contour and the pass. -/
theorem setParameter (h : s.Aimed) {name : Char} {value : Float} {now : Nat}
    (hs : s.setParameter id name value now = .ok s') : s'.Aimed := by
  obtain ⟨-, parameters, -, -, rfl⟩ := setParameter_eq_ok hs
  refine (h.rewrite id
    (s.rows.modify id fun r =>
      Row.evict { r with equation := { r.equation with parameters := parameters } })
    (fun i hi => Keyed.get?_modify_of_ne s.rows _ hi) fun r' hr' => ?_).congr rfl rfl rfl
  rw [Keyed.get?_modify_self] at hr'
  obtain ⟨old, -, rfl⟩ := Option.map_eq_some_iff.mp hr'
  rfl

/-- The range of a slider is no matter of contours, -/
theorem setParameterRange (h : s.Aimed) {name : Char} {min max : Float}
    (hs : s.setParameterRange id name min max = .ok s') : s'.Aimed := by
  obtain ⟨-, -, -, -, -, -, rfl⟩ := setParameterRange_eq_ok hs
  exact h.updateRow id fun _ _ _ hc _ => hc

/-- nor is a color, -/
theorem setColor (h : s.Aimed) {color : Color} (hs : s.setColor id color = .ok s') : s'.Aimed := by
  rw [setColor_eq_ok hs]
  exact h.updateRow id fun _ _ _ hc _ => hc

/-- nor is a text that is only typed. -/
theorem editText (h : s.Aimed) {text : String} {now : Nat} (hs : s.editText id text now = .ok s') :
    s'.Aimed := by
  obtain ⟨-, rfl⟩ := editText_eq_ok hs
  exact h.congr rfl rfl rfl

/-! ### Looking and the parts of a poll -/

/-- What is traced to be drawn at once is a preview. -/
theorem contour (h : s.Aimed) (id : Nat) : (s.contour id).1.Aimed := by
  unfold Scene.contour
  split
  · exact h
  · split
    · exact h
    · refine h.updateRow id fun r c _ hc hquality => ?_
      rw [← Option.some.inj hc] at hquality
      cases hquality

/-- Before a snapshot, only previews are traced. -/
theorem prepared (h : s.Aimed) : s.prepared.Aimed :=
  List.foldlRecOn s.rows.keys (fun s id => (Scene.contour s id).1) (motive := Aimed) h
    fun _ hs id _ => hs.contour id

/-- Pins have nothing to do with contours, -/
theorem togglePin (h : s.Aimed) (x y : Float) : (s.togglePin x y).1.Aimed := by
  unfold Scene.togglePin
  dsimp only
  split <;> exact h.congr rfl rfl rfl

/-- nor have clicks. -/
theorem click (h : s.Aimed) (px py : Float) : (s.click px py).1.Aimed := by
  unfold Scene.click
  split
  · exact h
  · exact h.togglePin _ _

/-- An edit that is due sets its text or does nothing. -/
theorem applyEdit {state : Scene × Bool} (h : state.1.Aimed) (id : Nat) :
    (Scene.applyEdit state id).1.Aimed := by
  unfold Scene.applyEdit
  split
  · exact h
  · dsimp only
    have hwaiting : Aimed { state.1 with pendingText := state.1.pendingText.erase id } :=
      h.congr rfl rfl rfl
    split
    · next s' hs => exact hwaiting.setText hs
    · exact hwaiting

/-- So it is for all that are due. -/
theorem applyEdits (h : s.Aimed) (now : Nat) : (s.applyEdits now).1.Aimed := by
  refine List.foldlRecOn (s.edits.due now) Scene.applyEdit (motive := fun state => state.1.Aimed)
    ?_ fun _ hstate id _ => applyEdit hstate id
  exact h.congr rfl rfl rfl

/-- What is due for a refresh is refreshed. -/
theorem applyRefreshes (h : s.Aimed) (now : Nat) : (s.applyRefreshes now).1.Aimed := by
  have hdelivered : Aimed { s with refreshes := s.refreshes.deliver now } := h.congr rfl rfl rfl
  unfold Scene.applyRefreshes
  dsimp only
  split
  · exact hdelivered
  · exact (hdelivered.foldl_refreshEquation _).refreshDerived

/-- When a scroll has rested, everything is. -/
theorem applyScroll (h : s.Aimed) (now : Nat) : (s.applyScroll now).1.Aimed := by
  have hrests : Aimed { s with scrollSettlesAt := none } := h.congr rfl rfl rfl
  unfold Scene.applyScroll
  split
  · exact hrests.refreshAll
  · exact h

/-- **A result that is kept was awaited,** and under the view of its pass. -/
theorem receive (h : s.Aimed) (hcurrent : s.Current 0 0) : s.receive.Aimed := by
  rcases hcurrent.passes.receive_cases with ⟨hnone, hinFlight⟩ | ⟨f, ticket, hf, hx, hinFlight⟩
  · rw [Scene.receive, hnone]
    exact h.congr rfl rfl hinFlight
  · obtain ⟨job, ⟨⟨-, r, hr, -⟩, -⟩, hjob, -⟩ := hcurrent.passes.inFlight hx
    rw [receive_of_some hf (hjob ▸ hr)]
    have hflight : ∀ i, s.jobs.receive.1.inFlight.get? i = (s.jobs.inFlight.erase f.id).get? i :=
      fun i => congrArg (fun m => m.get? i) hinFlight
    let kept : Scene := { s with jobs := s.jobs.receive.1 }.updateRow f.id fun r =>
      { r with contour := some ⟨f.segments, f.viewport, .fine⟩ }
    have hapart : Apart f.id s kept :=
      ⟨rfl, rfl, rfl, fun i hi => Keyed.get?_modify_of_ne s.rows _ hi,
        fun i hi => (hflight i).trans (Keyed.get?_erase_of_ne _ hi)⟩
    refine h.step hapart (fun x hx' => ?_) fun r' c hr' hc _ => ?_
    · -- with its result the pass is not awaited any more
      have hgone : none = some x := (Keyed.get?_erase_self _ f.id).symm.trans
        ((hflight f.id).symm.trans hx')
      cases hgone
    · -- the contour that is kept is under the view of the pass, which was awaited
      rw [Scene.updateRow, Keyed.get?_modify_self] at hr'
      obtain ⟨old, -, rfl⟩ := Option.map_eq_some_iff.mp hr'
      rw [← Option.some.inj hc]
      exact h.inFlight f.id ⟨ticket, f.viewport⟩ hx

/-- The end of a pass changes nothing that is awaited. -/
theorem finish (h : s.Aimed) (ticket : Nat) (left : Option (List (Segment Float))) :
    (s.finish ticket left).Aimed := by
  unfold Scene.finish
  split
  · exact h.congr rfl rfl rfl
  · exact h

end Aimed

/-- The actions that change the view. -/
def Action.movesView : Action → Bool
  | .pan _ _ | .zoomAt _ _ _ _ | .zoom _ | .resetView | .setView _ | .resize _ _ => true
  | _ => false

/-- **As long as the view is left alone, all stays aimed at it.** -/
theorem Aimed.act (h : s.Aimed) (hcurrent : s.Current 0 0) {a : Action}
    (ha : a.movesView = false) : (s.act a).Aimed := by
  -- an operation that is refused changes nothing
  have hafter {outcome : Except SceneError Scene} (hok : ∀ s', outcome = .ok s' → s'.Aimed) :
      (s.after outcome).Aimed := after_of h hok
  cases a with
  | pan | zoomAt | zoom | resetView | setView | resize => cases ha
  | add text => exact h.add text
  | addColored text color => exact h.addColored text color
  | remove id => exact hafter fun _ hs => h.remove hs
  | setText id text => exact hafter fun _ hs => h.setText hs
  | editText id text now => exact hafter fun _ hs => h.editText hs
  | clear => exact h.clear
  | loadSheet sheet => exact h.loadSheet sheet
  | setColor id color => exact hafter fun _ hs => h.setColor hs
  | setParameter id name value now => exact hafter fun _ hs => h.setParameter hs
  | setParameterRange id name min max => exact hafter fun _ hs => h.setParameterRange hs
  | beginDrag => exact h.congr rfl rfl rfl
  | endDrag =>
    have hended : Aimed { s with dragging := false } := h.congr rfl rfl rfl
    exact hended.refreshAll
  | refreshEquation id => exact h.refreshEquation id
  | refreshAll => exact h.refreshAll
  | contour id => exact h.contour id
  | snapshot => exact h.prepared
  | togglePin x y => exact h.togglePin x y
  | click px py => exact h.click px py
  | clearPins => exact h.congr rfl rfl rfl
  | applyEdits now => exact h.applyEdits now
  | applyRefreshes now => exact h.applyRefreshes now
  | applyScroll now => exact h.applyScroll now
  | receive => exact h.receive hcurrent
  | finish ticket left => exact h.finish ticket left

/-- What is aimed stays so in a run that leaves the view alone. -/
theorem Aimed.run (h : s.Aimed) (hcurrent : s.Current 0 0) {actions : List Action}
    (hmoves : ∀ a ∈ actions, a.movesView = false) : (s.run actions).Aimed := by
  induction actions generalizing s with
  | nil => exact h
  | cons a actions ih =>
    exact ih (h.act hcurrent (hmoves a List.mem_cons_self)) (hcurrent.act a) fun b hb =>
      hmoves b (List.mem_cons_of_mem a hb)

/-! ### Aiming -/

/-- No contour is kept but previews. -/
def Coarse (s : Scene) : Prop :=
  ∀ i r c, s.rows.get? i = some r → r.contour = some c → c.quality = .preview

namespace Coarse

/-- A row may be changed if it gets no fine contour. -/
theorem updateRow (h : s.Coarse) (id : Nat) {f : Row → Row}
    (hf : ∀ r c, s.rows.get? id = some r → (f r).contour = some c → c.quality = .preview) :
    (s.updateRow id f).Coarse := by
  intro i r c hr hc
  by_cases hi : i = id
  · subst hi
    rw [Scene.updateRow, Keyed.get?_modify_self] at hr
    obtain ⟨old, hold, rfl⟩ := Option.map_eq_some_iff.mp hr
    exact hf old c hold hc
  · rw [Scene.updateRow, Keyed.get?_modify_of_ne s.rows f hi] at hr
    exact h i r c hr hc

/-- A refresh does not make anything fine by itself. -/
theorem refreshEquation (h : s.Coarse) (id : Nat) : (s.refreshEquation id).Coarse := by
  unfold Scene.refreshEquation
  split
  · exact h
  · next r hr =>
    split
    · exact h
    · exact h.updateRow id fun r' c hr' hc => h id r' c hr' hc
    · exact h.updateRow id fun r' c hr' hc => h id r' c hr' hc
    · split
      · exact h
      · have hput : (s.updateRow id fun r' => { r' with contour := some (s.standIn r) }).Coarse := by
          refine h.updateRow id fun r' c _ hc => ?_
          -- what stands in is a preview, or it was kept before, when only previews were
          rw [← Option.some.inj hc]
          exact (Aimed.standIn_cases s r).elim (fun hpreview => hpreview) fun hkept => h id r _ hr hkept
        obtain ⟨jobs, hjobs⟩ := requestFine_eq
          (s.updateRow id fun r' => { r' with contour := some (s.standIn r) }) id r.equation
        rw [hjobs]
        exact hput

/-- Nor does a refresh of everything. -/
theorem refreshAll (h : s.Coarse) : s.refreshAll.Coarse :=
  List.foldlRecOn s.rows.keys Scene.refreshEquation (motive := Coarse) h
    fun _ hs id _ => hs.refreshEquation id

end Coarse

/-- **Where only previews are kept, what is awaited is what is needed:** the pass under the view
that is shown. -/
theorem Aimed.of_tended (h : s.Tended fun _ => False) (hcurrent : s.Current 0 0)
    (hcoarse : s.Coarse) (hrest : s.isInteracting = false) : s.Aimed where
  view := h.view.beq_self
  inFlight i x hx := by
    obtain ⟨job, ⟨⟨-, r, hr, himplicit, -⟩, -⟩, rfl, -⟩ := hcurrent.passes.inFlight hx
    -- a contour that serves would be fine, so the pass under the view is awaited
    rcases h.served hrest job.id r hr himplicit not_false with ⟨c, hc, hfine, -⟩ | ⟨hrunning, -⟩
    · rw [hcoarse job.id r c hr hc] at hfine
      cases hfine
    · obtain ⟨x', hx', hview⟩ := JobBoard.isRunningFor_iff.mp hrunning
      rwa [Option.some.inj (hx.symm.trans hx')]
  fine i r c hr hc hfine := by
    rw [hcoarse i r c hr hc] at hfine
    cases hfine

/-- **In a scene that is aimed and tended and waits for nothing, an implicit curve is drawn as
the fine pass finds it** under the view that is shown. -/
theorem Aimed.exists_fine (h : s.Aimed) (htended : s.Tended s.Pending) (hcurrent : s.Current 0 0)
    (hrest : s.isInteracting = false) (hidle : s.jobs.inFlight.get? id = none)
    (hpending : ¬s.Pending id) (hr : s.rows.get? id = some r)
    (himplicit : r.equation.isImplicit = true) :
    ∃ c, r.contour = some c ∧ c.quality = .fine ∧ s.shows c = true ∧
      Contour.fine r.equation.field s.viewport s.settings false = some c.segments := by
  -- nothing is awaited, so it is the contour that serves
  rcases htended.served hrest id r hr himplicit hpending with ⟨c, hc, hfine, hserves⟩ | ⟨hrunning, -⟩
  · have htraced := (hcurrent.row id r hr).contour_traced c hc
    unfold Contour.TracedFrom at htraced
    rw [hfine] at htraced
    refine ⟨c, hc, hfine, ?_, ?_⟩
    · rw [shows, if_pos (isFine_iff.mpr hfine)]
      exact hserves
    · rw [← Contour.fine_of_beq htended.view (h.fine id r c hr hc hfine)]
      exact htraced
  · obtain ⟨x, hx, -⟩ := JobBoard.isRunningFor_iff.mp hrunning
    rw [hidle] at hx
    cases hx

end CurvePlot.Scene
