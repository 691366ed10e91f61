import CurvePlot.Proofs.Equation.Relation
import CurvePlot.Proofs.Scene.Caches
import CurvePlot.Proofs.Scene.Tended
/-!
# No implicit curve is stranded on its preview

`Tended` holds along every run whose views are regular, with those equations excused whose
slider has moved and is not yet at rest (`Pending`). Editing rewrites a row and refreshes
it; moving the view upsets all rows and is followed by a refresh of all, or else the view
goes on moving; `contour` replaces what is kept only if it does not serve; and a result
that comes was awaited by a row with a preview (`Tended.receive`).

`run_served` is what this comes to.
-/

namespace CurvePlot.Scene

/-- A slider of the equation has moved and is not yet at rest. -/
def Pending (s : Scene) (id : Nat) : Prop := s.refreshes.isPending id = true

variable {s s' : Scene} {excused excused' : Nat → Prop}

/-- What serves an equation is shown. -/
theorem Served.shown {id : Nat} {r : Row} (h : s.Served id r) :
    ∃ c, r.contour = some c ∧ s.shows c = true := by
  rcases h with ⟨c, hc, hquality, hreusable⟩ | ⟨-, c, hc, hquality, hreusable⟩
  · refine ⟨c, hc, ?_⟩
    rw [shows, if_pos (isFine_iff.mpr hquality)]
    exact hreusable
  · refine ⟨c, hc, ?_⟩
    have hcoarse : ¬ c.isFine = true := by
      rw [isFine_iff, hquality]
      exact nofun
    rw [shows, if_neg hcoarse]
    exact hreusable

namespace Tended

/-! ### Editing -/

/-- A row that was written is refreshed. -/
theorem refreshWritten {id : Nat} (h : s.Tended fun i => s.Pending i ∨ i = id) :
    (s.refreshEquation id).refreshDerived.Tended (s.refreshEquation id).refreshDerived.Pending := by
  refine (h.refreshEquation id).refreshDerived.mono fun i hi => ?_
  show (s.refreshEquation id).refreshes.isPending i = true
  rw [(Refreshed.refreshEquation s id).refreshes]
  exact hi.1.resolve_right hi.2

/-- The number of a new equation is that of no other, and nothing is awaited for it. -/
theorem addColored (h : s.Tended s.Pending) (hcurrent : s.Current 0 0) (text : String)
    (color : Color) : (s.addColored text color).Tended (s.addColored text color).Pending := by
  -- no row has the number that is given next
  have hfresh : s.rows.get? s.nextId = none := by
    rw [Option.eq_none_iff_forall_ne_some]
    intro r hr
    exact Nat.lt_irrefl s.nextId (hcurrent.row_lt s.nextId r hr)
  let added : Scene := { s with
    rows := s.rows.insert s.nextId (Row.fresh (s.compile text) color)
    nextId := s.nextId + 1 }
  have hadded : added.Tended fun i => added.Pending i ∨ i = s.nextId := by
    have hothers : Apart s.nextId s added :=
      ⟨rfl, rfl, rfl, fun i hi => Keyed.get?_insert_of_ne s.rows _ hi, fun _ _ => rfl⟩
    -- the new equation has no pass, since a pass has a row
    refine h.step hothers (fun _ _ he => .inl he) (fun x hx => ?_)
      fun _ _ _ _ hex => absurd (.inr rfl) hex
    obtain ⟨r, -, hr, -⟩ := h.preview s.nextId x hx
    rw [hfresh] at hr
    cases hr
  exact hadded.refreshWritten

/-- An equation that is added takes a color from the palette, and nothing else. -/
theorem add (h : s.Tended s.Pending) (hcurrent : s.Current 0 0) (text : String) :
    (s.add text).Tended (s.add text).Pending := by
  have hpalette : Tended s.Pending { s with palette := s.palette.advance } :=
    h.congr rfl rfl rfl rfl rfl
  have hsame : Scene.Current 0 0 { s with palette := s.palette.advance } :=
    hcurrent.congr rfl rfl rfl rfl
  exact addColored hpalette hsame text s.palette.upcoming

/-- Equations may be added one after the other. -/
theorem foldl_add (h : s.Tended s.Pending) (hcurrent : s.Current 0 0) (texts : List String) :
    (texts.foldl Scene.add s).Tended (texts.foldl Scene.add s).Pending := by
  induction texts generalizing s with
  | nil => exact h
  | cons text texts ih => exact ih (h.add hcurrent text) (hcurrent.add text)

/-- Without equations there is nothing to tend. -/
theorem clear (h : s.Tended excused) : s.clear.Tended excused' where
  tolerance := h.tolerance
  view := h.view
  preview _ _ hx := by cases hx
  served _ _ _ hr := by cases hr

/-- An equation that is removed takes its pass and its wait along. -/
theorem remove (h : s.Tended s.Pending) {id : Nat} (hs : s.remove id = .ok s') :
    s'.Tended s'.Pending := by
  obtain ⟨-, rfl⟩ := remove_eq_ok hs
  have hgone := h.rewrite id (s.rows.erase id) fun i hi => Keyed.get?_erase_of_ne s.rows hi
  -- with the row gone, nothing is to be said of its equation
  have hsettled := hgone.settle id fun _ r hr _ => by
    rw [Keyed.get?_erase_self] at hr
    cases hr
  refine (hsettled.mono fun i hi => ?_).congr rfl rfl rfl rfl rfl
  exact (Debouncer.isPending_cancel_of_ne hi.2).trans (hi.1.resolve_right hi.2)

/-- **A text that is set** ends the wait of its equation and is followed by a refresh. -/
theorem setText (h : s.Tended s.Pending) {id : Nat} {text : String}
    (hs : s.setText id text = .ok s') : s'.Tended s'.Pending := by
  rcases setText_eq_ok hs with ⟨-, hremove⟩ | ⟨-, r, hr, rfl⟩
  · -- a blank text removes the equation
    exact h.remove hremove
  have hwritten := h.rewrite id (s.rows.insert id (r.retyped (s.compile text)))
    fun i hi => Keyed.get?_insert_of_ne s.rows _ hi
  refine Tended.refreshWritten ((hwritten.mono fun i hi => ?_).congr rfl rfl rfl rfl rfl)
  -- the wait of the equation is ended, and the others go on
  by_cases hid : i = id
  · exact .inr hid
  · exact .inl ((Debouncer.isPending_cancel_of_ne hid).trans (hi.resolve_right hid))

/-- **A slider that moves excuses its equation** until it is at rest. -/
theorem setParameter (h : s.Tended s.Pending) {id : Nat} {name : Char} {value : Float} {now : Nat}
    (hs : s.setParameter id name value now = .ok s') : s'.Tended s'.Pending := by
  obtain ⟨-, parameters, -, -, rfl⟩ := setParameter_eq_ok hs
  have hwritten := h.rewrite id
    (s.rows.modify id fun r =>
      Row.evict { r with equation := { r.equation with parameters := parameters } })
    fun i hi => Keyed.get?_modify_of_ne s.rows _ hi
  refine (hwritten.mono fun i hi => ?_).congr rfl rfl rfl rfl rfl
  by_cases hid : i = id
  · -- its refresh is put off
    subst hid
    exact Debouncer.isPending_schedule_self
  · exact (Debouncer.isPending_schedule_of_ne hid).trans (hi.resolve_right hid)

/-- The range of a slider is no part of what is traced. -/
theorem setParameterRange (h : s.Tended s.Pending) {id : Nat} {name : Char} {min max : Float}
    (hs : s.setParameterRange id name min max = .ok s') : s'.Tended s'.Pending := by
  obtain ⟨-, -, -, -, -, -, rfl⟩ := setParameterRange_eq_ok hs
  exact h.updateRow id fun _ _ => ⟨rfl, rfl⟩

/-- Nor is the color. -/
theorem setColor (h : s.Tended s.Pending) {id : Nat} {color : Color}
    (hs : s.setColor id color = .ok s') : s'.Tended s'.Pending := by
  rw [setColor_eq_ok hs]
  exact h.updateRow id fun _ _ => ⟨rfl, rfl⟩

/-- A text that is typed is not compiled yet. -/
theorem editText (h : s.Tended s.Pending) {id : Nat} {text : String} {now : Nat}
    (hs : s.editText id text now = .ok s') : s'.Tended s'.Pending := by
  obtain ⟨-, rfl⟩ := editText_eq_ok hs
  exact h.congr rfl rfl rfl rfl rfl

/-! ### Moving the view and looking -/

/-- **A change of the view is followed by a refresh of all.** -/
theorem lookAgain (h : s.Tended excused) (hsettings : s'.settings = s.settings)
    (hview : s'.refreshAll.viewport.Regular) (hrows : s'.rows = s.rows)
    (hjobs : s'.jobs = s.jobs) : s'.refreshAll.Tended excused' := by
  rw [(Refreshed.refreshAll s').viewport] at hview
  exact (h.look hsettings hview hrows hjobs).refreshAll

/-- **A pan** is followed by a refresh of all, unless the view goes on moving. -/
theorem pan (h : s.Tended excused) {dx dy : Float} (hview : (s.pan dx dy).viewport.Regular) :
    (s.pan dx dy).Tended excused' := by
  have hlook (hregular : (s.viewport.pan dx dy).Regular) :
      Tended (fun _ => True) { s with viewport := s.viewport.pan dx dy } :=
    h.look rfl hregular rfl rfl
  unfold Scene.pan at hview ⊢
  dsimp only at hview ⊢
  split
  · next hmoves =>
    -- while it is dragged, no row need be tended
    rw [if_pos hmoves] at hview
    exact (hlook hview).of_interacting hmoves
  · next hrests =>
    -- when it rests, all rows are refreshed
    rw [if_neg hrests, (Refreshed.refreshAll _).viewport] at hview
    exact (hlook hview).refreshAll

/-- **A contour is traced anew only if the equation is not served.** -/
theorem contour (h : s.Tended s.Pending) (id : Nat) :
    (s.contour id).1.Tended (s.contour id).1.Pending := by
  unfold Scene.contour
  split
  · exact h
  · next r hr =>
    obtain ⟨hr, himplicit⟩ := Option.filter_eq_some_iff.mp hr
    split
    · -- the contour that is shown is kept
      exact h
    · next hnone =>
      -- a preview is put into the row, which is excused from now on
      have hput := h.putPreview id (previewOf s.settings s.viewport r.equation) rfl
      refine { hput with served := fun hrest i r' hr' himplicit' hex => ?_ }
      refine hput.served hrest i r' hr' himplicit' fun hor => ?_
      obtain rfl : i = id := hor.resolve_left hex
      -- had it been served, the contour would have been shown
      obtain ⟨c, hc, hshown⟩ := (h.served hrest i r hr himplicit hex).shown
      rw [hc, Option.filter_some, if_pos hshown] at hnone
      cases hnone

/-- A snapshot prepares one contour after the other. -/
theorem prepared (h : s.Tended s.Pending) : s.prepared.Tended s.prepared.Pending := by
  unfold Scene.prepared
  generalize s.rows.keys = ids
  induction ids generalizing s with
  | nil => exact h
  | cons id ids ih => exact ih (h.contour id)

/-- Pins are no contours. -/
theorem togglePin (h : s.Tended s.Pending) (x y : Float) :
    (s.togglePin x y).1.Tended (s.togglePin x y).1.Pending := by
  unfold Scene.togglePin
  dsimp only
  split
  · exact h.congr rfl rfl rfl rfl rfl
  · exact h.congr rfl rfl rfl rfl rfl

/-- A click pins, or does nothing. -/
theorem click (h : s.Tended s.Pending) (px py : Float) :
    (s.click px py).1.Tended (s.click px py).1.Pending := by
  unfold Scene.click
  split
  · exact h
  · exact h.togglePin _ _

/-! ### The parts of a poll -/

/-- An edit that has come sets its text, if the equation is still there. -/
theorem applyEdit {state : Scene × Bool} (h : state.1.Tended state.1.Pending) (id : Nat) :
    (Scene.applyEdit state id).1.Tended (Scene.applyEdit state id).1.Pending := by
  unfold Scene.applyEdit
  split
  · exact h
  · next text htext =>
    dsimp only
    have hwaiting : Tended state.1.Pending
        { state.1 with pendingText := state.1.pendingText.erase id } := h.congr rfl rfl rfl rfl rfl
    split
    · next s' hs => exact Tended.setText hwaiting hs
    · exact hwaiting

/-- So do all edits that are due. -/
theorem foldl_applyEdit (state : Scene × Bool) (h : state.1.Tended state.1.Pending)
    (ids : List Nat) : (ids.foldl Scene.applyEdit state).1.Tended
      (ids.foldl Scene.applyEdit state).1.Pending := by
  induction ids generalizing state with
  | nil => exact h
  | cons id ids ih => exact ih _ (h.applyEdit id)

/-- The edits that are due are delivered first. -/
theorem applyEdits (h : s.Tended s.Pending) (now : Nat) :
    (s.applyEdits now).1.Tended (s.applyEdits now).1.Pending := by
  have hdelivered : Tended s.Pending { s with edits := s.edits.deliver now } :=
    h.congr rfl rfl rfl rfl rfl
  exact foldl_applyEdit ({ s with edits := s.edits.deliver now }, false) hdelivered _

/-- **The sliders that have come to rest are those whose excuse ends.** -/
theorem applyRefreshes (h : s.Tended s.Pending) (now : Nat) :
    (s.applyRefreshes now).1.Tended (s.applyRefreshes now).1.Pending := by
  let delivered : Scene := { s with refreshes := s.refreshes.deliver now }
  have hdelivered : delivered.Tended s.Pending := h.congr rfl rfl rfl rfl rfl
  have hothers : ∀ i, s.Pending i ∧ i ∉ s.refreshes.due now → delivered.Pending i := fun i hi =>
    (Debouncer.isPending_deliver_of_not_due hi.2).trans hi.1
  unfold Scene.applyRefreshes
  dsimp only
  split
  · next hnone =>
    -- no slider is at rest, so all excuses stay
    refine hdelivered.mono fun i hi => hothers i ⟨hi, ?_⟩
    rw [List.isEmpty_iff.mp hnone]
    exact List.not_mem_nil
  · -- those that are refreshed are excused no longer
    refine (hdelivered.foldl_refreshEquation _).refreshDerived.mono fun i hi => ?_
    have hsame := Refreshed.foldl_refreshEquation delivered (s.refreshes.due now)
    show ((s.refreshes.due now).foldl Scene.refreshEquation delivered).refreshes.isPending i = true
    rw [hsame.refreshes]
    exact hothers i hi

/-- A view that settles is refreshed. -/
theorem applyScroll (h : s.Tended s.Pending) (now : Nat) :
    (s.applyScroll now).1.Tended (s.applyScroll now).1.Pending := by
  unfold Scene.applyScroll
  split
  · -- the view is as it was, but it rests now
    have hrests : Tended (fun _ => True) { s with scrollSettlesAt := none } :=
      h.look rfl h.view rfl rfl
    exact hrests.refreshAll
  · exact h

/-- **A result that comes takes the place of a preview.** If the row was served, then by
the very pass that now is over, under the current view. -/
theorem receive (h : s.Tended s.Pending) {P : Job → Prop} (hlive : s.jobs.LiveAll P) :
    s.receive.Tended s.receive.Pending := by
  -- either nothing has come, or the awaited pass of some equation
  rcases hlive.receive_cases with ⟨hnone, hinFlight⟩ | ⟨f, ticket, hf, hx, hinFlight⟩
  · rw [Scene.receive, hnone]
    exact h.congr rfl rfl rfl rfl hinFlight
  · obtain ⟨r, c, hr, hc, hquality⟩ := h.preview f.id _ hx
    rw [receive_of_some hf hr]
    let fine : Contour Float := ⟨f.segments, f.viewport, .fine⟩
    let kept : Scene := { s with jobs := s.jobs.receive.1 }.updateRow f.id fun r =>
      { r with contour := some fine }
    have hflight : ∀ i, kept.jobs.inFlight.get? i = (s.jobs.inFlight.erase f.id).get? i :=
      fun i => congrArg (fun m => m.get? i) hinFlight
    have hothers : Apart f.id s kept :=
      ⟨rfl, rfl, rfl, fun i hi => Keyed.get?_modify_of_ne s.rows _ hi,
        fun i hi => (hflight i).trans (Keyed.get?_erase_of_ne _ hi)⟩
    refine h.step hothers (fun _ _ he => he) (fun x hx' => ?_) fun hrest r' hr' himplicit hex => ?_
    · -- its pass is over, so no other is awaited for it
      rw [hflight, Keyed.get?_erase_self] at hx'
      cases hx'
    · have hnew : kept.rows.get? f.id = some { r with contour := some fine } := by
        refine (Keyed.get?_modify_self s.rows f.id _).trans ?_
        rw [hr]
        rfl
      obtain rfl := Option.some.inj (hnew.symm.trans hr')
      rcases h.served hrest f.id r hr himplicit hex with ⟨c', hc', hfine, -⟩ | ⟨hrunning, -⟩
      · -- what was awaited was to replace a preview
        obtain rfl := Option.some.inj (hc.symm.trans hc')
        rw [hquality] at hfine
        cases hfine
      · obtain ⟨x, hx', hview⟩ := JobBoard.isRunningFor_iff.mp hrunning
        obtain rfl := Option.some.inj (hx.symm.trans hx')
        exact .inl ⟨fine, rfl, rfl, Contour.isReusable_of_beq h.view h.tolerance hview⟩

/-- A pass that ends is told to the board. -/
theorem finish (h : s.Tended s.Pending) (ticket : Nat) (left : Option (List (Segment Float))) :
    (s.finish ticket left).Tended (s.finish ticket left).Pending := by
  unfold Scene.finish
  split
  · exact h.congr rfl rfl rfl rfl rfl
  · -- nobody awaits it
    exact h

/-! ### Every action -/

/-- A scene without equations is tended, if its view is regular. -/
theorem start {settings : Settings Float} (htolerance : (0.0 : Float) ≤ settings.driftTolerance)
    {width height : Float} (hview : (Scene.new settings width height).viewport.Regular) :
    (Scene.new settings width height).Tended excused where
  tolerance := htolerance
  view := hview
  preview _ _ hx := by cases hx
  served _ _ _ hr := by cases hr

/-- **Whatever happens under regular views, the curves are tended.** -/
theorem act (h : s.Tended s.Pending) (hcurrent : s.Current 0 0) {a : Action}
    (hview : (s.act a).viewport.Regular) : (s.act a).Tended (s.act a).Pending := by
  -- what is refused leaves the scene as it is
  have hafter {outcome : Except SceneError Scene}
      (hok : ∀ s', outcome = .ok s' → s'.Tended s'.Pending) :
      (s.after outcome).Tended (s.after outcome).Pending :=
    @after_of (fun t => t.Tended t.Pending) s outcome h hok
  -- every action is one of the cases above; those that move the view find it regular afterwards
  cases a with
  | add text => exact h.add hcurrent text
  | addColored text color => exact h.addColored hcurrent text color
  | remove id => exact hafter fun _ hs => h.remove hs
  | setText id text => exact hafter fun _ hs => h.setText hs
  | editText id text now => exact hafter fun _ hs => h.editText hs
  | clear => exact h.clear
  | loadSheet sheet => exact h.clear.foldl_add hcurrent.clear _
  | setColor id color => exact hafter fun _ hs => h.setColor hs
  | setParameter id name value now => exact hafter fun _ hs => h.setParameter hs
  | setParameterRange id name min max => exact hafter fun _ hs => h.setParameterRange hs
  | beginDrag =>
    have hlook : Tended (fun _ => True) s.beginDrag := h.look rfl hview rfl rfl
    exact hlook.of_interacting rfl
  | endDrag => exact h.lookAgain rfl hview rfl rfl
  | pan dx dy => exact h.pan hview
  | zoomAt px py inward now =>
    have hlook : Tended (fun _ => True) (s.zoomAt px py inward now) := h.look rfl hview rfl rfl
    exact hlook.of_interacting (Bool.or_true _)
  | zoom inward => exact h.lookAgain rfl hview rfl rfl
  | resetView => exact h.lookAgain rfl hview rfl rfl
  | setView camera => exact h.lookAgain rfl hview rfl rfl
  | resize width height => exact h.lookAgain rfl hview rfl rfl
  | refreshEquation id =>
    refine (h.refreshEquation id).mono fun i hi => ?_
    show (s.refreshEquation id).refreshes.isPending i = true
    rw [(Refreshed.refreshEquation s id).refreshes]
    exact hi.1
  | refreshAll => exact h.refreshAll
  | contour id => exact h.contour id
  | snapshot => exact h.prepared
  | togglePin x y => exact h.togglePin x y
  | click px py => exact h.click px py
  | clearPins => exact h.congr rfl rfl rfl rfl rfl
  | applyEdits now => exact h.applyEdits now
  | applyRefreshes now => exact h.applyRefreshes now
  | applyScroll now => exact h.applyScroll now
  | receive => exact h.receive hcurrent.passes
  | finish ticket left => exact h.finish ticket left

/-- **A run through regular views** leaves the curves tended. -/
theorem run (h : s.Tended s.Pending) (hcurrent : s.Current 0 0) {actions : List Action}
    (hviews : ∀ before, before <+: actions → (s.run before).viewport.Regular) :
    (s.run actions).Tended (s.run actions).Pending := by
  induction actions generalizing s with
  | nil => exact h
  | cons a actions ih =>
    -- the views on the way are regular as well
    have hview : (s.act a).viewport.Regular :=
      hviews [a] (List.cons_prefix_cons.mpr ⟨rfl, List.nil_prefix⟩)
    refine ih (h.act hcurrent hview) (hcurrent.act a) fun before hbefore => ?_
    exact hviews (a :: before) (List.cons_prefix_cons.mpr ⟨rfl, hbefore⟩)

end Tended

/-- **No implicit curve is left stranded on its preview.** In a run through regular views
and with a tolerance that is not negative, whenever the view rests, every implicit
equation whose sliders rest either has a fine contour that serves the view, or has a fine
pass under way for exactly this view and a preview of it. -/
theorem run_served (settings : Settings Float) (width height : Float) (actions : List Action)
    (htolerance : (0.0 : Float) ≤ settings.driftTolerance)
    (hviews : ∀ before, before <+: actions →
      ((Scene.new settings width height).run before).viewport.Regular) :
    let s := (Scene.new settings width height).run actions
    s.isInteracting = false → ∀ id r, s.rows.get? id = some r →
      r.equation.isImplicit = true → s.refreshes.isPending id = false → s.Served id r := by
  intro s hrest id r hr himplicit hpending
  let first : Scene := Scene.new settings width height
  have hstart : first.Tended first.Pending := .start htolerance (hviews [] List.nil_prefix)
  have htended : s.Tended s.Pending := hstart.run (.start settings width height) hviews
  refine htended.served hrest id r hr himplicit fun hwaits => ?_
  exact Bool.false_ne_true (hpending.symm.trans hwaits)

/-- A parabola along the first axis is not linear in `y`. -/
theorem classification_parabola :
    (Equation.compile "y*y=x" (Settings.standard : Settings Float).linearProbe).classification =
      .implicit := by
  have hy (t : Parameter.Table) {after : List Token} (h : after.head? ≠ some .leftParen) :
      Expr.Derives t .signed [.word ['y']] after .y := .ofPower (.ofAtom (.word ['y'] h))
  have hsquare (t : Parameter.Table) : Expr.read t ['y', '*', 'y'] = .ok (.binary .mul .y .y) := by
    have hscans : Token.Scans ['y', '*', 'y'] [.word ['y'], .star, .word ['y']] := by
      repeat' first | exact .nil | refine .token rfl rfl ?_
    have hproduct : Expr.Derives t .product [.word ['y'], .star, .word ['y']] []
        (.binary .mul .y .y) := .mul (.ofSigned (hy t (by decide))) (hy t (by decide))
    exact Expr.read_eq_ok_iff.mpr ⟨_, hscans, .ofChain (.ofSum (.ofProduct hproduct))⟩
  let f : Formula := ⟨.binary .sub (.binary .mul .y .y) .x, none⟩
  let probe : Float := (Settings.standard : Settings Float).linearProbe
  have hlooks (env : Char → Float) : f.looksLinear env probe = false := by
    -- there are no parameters, so any values will do
    have hany : f.looksLinear env probe = f.looksLinear (fun _ => 0.0) probe := rfl
    rw [hany]
    decide +kernel
  exact (Equation.compile_of_read (by decide) (by decide +kernel) (by decide +kernel) hsquare
    Expr.read_x hlooks).1

/-- A parabola is added and the plane is moved by more than half of its width. No fine
contour is there then, so a pass is under way. -/
theorem run_served_parabola :
    let s := (Scene.new .standard 800.0 600.0).run [.add "y*y=x", .pan 500.0 0.0]
    (0.0 : Float) ≤ (Settings.standard : Settings Float).driftTolerance ∧
    s.viewport.Regular ∧ s.isInteracting = false ∧ ∃ r, s.rows.get? 0 = some r ∧
      r.equation.isImplicit = true ∧ s.refreshes.isPending 0 = false ∧ s.Served 0 r := by
  intro s
  let first : Scene := Scene.new .standard 800.0 600.0
  let added : Scene := { first with
    palette := first.palette.advance
    rows := first.rows.insert 0 (Row.fresh (first.compile "y*y=x") first.palette.upcoming)
    nextId := 1 }
  let moved : Scene := { first.add "y*y=x" with
    viewport := (first.add "y*y=x").viewport.pan 500.0 0.0 }
  have hadded : Refreshed added (first.add "y*y=x") :=
    (Refreshed.refreshEquation added 0).refreshDerived
  have hmoved : s = moved.refreshAll :=
    if_neg (Bool.not_eq_true _ ▸ hadded.isInteracting)
  have hrefreshed : Refreshed moved s := hmoved ▸ Refreshed.refreshAll moved
  have hviewport : s.viewport = first.viewport.pan 500.0 0.0 := by
    rw [hrefreshed.viewport]
    exact congrArg (fun v => v.pan 500.0 0.0) hadded.viewport
  have hstart : first.viewport.Regular := by decide +kernel
  have hend : s.viewport.Regular := by
    rw [hviewport]
    decide +kernel
  have htolerance : (0.0 : Float) ≤ (Settings.standard : Settings Float).driftTolerance := by
    decide +kernel
  have hviews : ∀ before, before <+: [.add "y*y=x", .pan 500.0 0.0] →
      (first.run before).viewport.Regular := by
    intro before hbefore
    rcases List.prefix_cons_iff.mp hbefore with rfl | ⟨rest, rfl, hrest⟩
    · exact hstart
    rcases List.prefix_cons_iff.mp hrest with rfl | ⟨last, rfl, hlast⟩
    · show (first.add "y*y=x").viewport.Regular
      rw [hadded.viewport]
      exact hstart
    · rw [List.prefix_nil.mp hlast]
      exact hend
  have hrests : s.isInteracting = false := hrefreshed.isInteracting.trans hadded.isInteracting
  have hpending : s.refreshes.isPending 0 = false := by
    rw [hrefreshed.refreshes]
    show (first.add "y*y=x").refreshes.isPending 0 = false
    rw [hadded.refreshes]
    rfl
  -- the row is the one that was added, but for what is kept
  have hrow : 0 ∈ s.rows.keys := by
    rw [hrefreshed.keys]
    show 0 ∈ (first.add "y*y=x").rows.keys
    rw [hadded.keys]
    exact Keyed.mem_keys.mpr ⟨_, Keyed.get?_insert_self _ 0 _⟩
  obtain ⟨r, hr⟩ := Keyed.mem_keys.mp hrow
  obtain ⟨mid, hmid, heq⟩ := hrefreshed.equation 0 r hr
  obtain ⟨old, hold, heq'⟩ := hadded.equation 0 mid hmid
  have hcompiled : r.equation = first.compile "y*y=x" := by
    rw [Keyed.get?_insert_self] at hold
    rw [heq, heq', ← Option.some.inj hold]
    rfl
  have himplicit : r.equation.isImplicit = true := by
    rw [hcompiled, Equation.isImplicit]
    exact congrArg Classification.isImplicit classification_parabola
  exact ⟨htolerance, hend, hrests, r, hr, himplicit, hpending,
    run_served .standard 800.0 600.0 _ htolerance hviews hrests 0 r hr himplicit hpending⟩

end CurvePlot.Scene
