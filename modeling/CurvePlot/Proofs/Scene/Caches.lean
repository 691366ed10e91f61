import CurvePlot.Proofs.Scene.Current
import CurvePlot.Proofs.Scene.Edits
/-!
# Nothing stale is kept

`Scene.Current` holds after every run: the lemmas for what moves the view, for the
parts of a poll and for the end of a pass complete those for editing, and `Current.act`
puts them together.

`Current.rewrites` is the reason why nothing stale comes later. Once an equation was
written, by `setText`, by `setParameter`, by removing it or by the coming of an edit,
`Current` holds with the ticket that was next before, and it goes on holding. So
whatever result is kept for this equation later belongs to a pass that was begun no
earlier. `run_caches` states both.
-/

namespace CurvePlot.Scene

namespace Current

variable {id n : Nat} {s s' : Scene}

/-! ### Moving the view and looking -/

/-- A change of the view is followed by a refresh. -/
theorem view (h : s.Current id n) (hrows : s'.rows = s.rows) (hjobs : s'.jobs = s.jobs)
    (hsettings : s'.settings = s.settings) (hnext : s'.nextId = s.nextId) :
    s'.refreshAll.Current id n :=
  (h.congr hrows hjobs hsettings hnext).refreshAll

theorem pan (h : s.Current id n) (dx dy : Float) : (s.pan dx dy).Current id n := by
  have hmoved : Scene.Current id n { s with viewport := s.viewport.pan dx dy } :=
    h.congr rfl rfl rfl rfl
  unfold Scene.pan
  dsimp only
  split
  · exact hmoved
  · exact hmoved.refreshAll

theorem contour (h : s.Current id n) (i : Nat) : (s.contour i).1.Current id n := by
  unfold Scene.contour
  split
  · exact h
  · next r hr =>
    obtain ⟨hr, himplicit⟩ := Option.filter_eq_some_iff.mp hr
    split
    · exact h
    · refine h.updateRow i fun r' hr' => ?_
      obtain rfl : r = r' := Option.some.inj (hr.symm.trans hr')
      exact ⟨(h.row i r hr).setContour himplicit (tracedFrom_previewOf _ _ _), rfl, rfl⟩

theorem prepared (h : s.Current id n) : s.prepared.Current id n := by
  unfold Scene.prepared
  generalize s.rows.keys = ids
  induction ids generalizing s with
  | nil => exact h
  | cons i ids ih => exact ih (h.contour i)

theorem togglePin (h : s.Current id n) (x y : Float) : (s.togglePin x y).1.Current id n := by
  unfold Scene.togglePin
  dsimp only
  split
  · exact h.congr rfl rfl rfl rfl
  · exact h.congr rfl rfl rfl rfl

theorem click (h : s.Current id n) (px py : Float) : (s.click px py).1.Current id n := by
  unfold Scene.click
  split
  · exact h
  · exact h.togglePin _ _

/-! ### The parts of a poll -/

/-- Setting the text that waits for an equation calls off its pass, if there is one. -/
theorem applyEdit {state : Scene × Bool} (h : state.1.Current id n) (i : Nat) :
    (Scene.applyEdit state i).1.Current id n ∧ (state.1.pendingText.contains i = true →
      (Scene.applyEdit state i).1.Current i state.1.jobs.nextTicket) := by
  unfold Scene.applyEdit
  cases hpending : state.1.pendingText.get? i with
  | none =>
    refine ⟨h, fun hcontains => ?_⟩
    rw [Keyed.contains, hpending] at hcontains
    cases hcontains
  | some text =>
    dsimp only
    have hwaiting : Scene.Current id n
        { state.1 with pendingText := state.1.pendingText.erase i } := h.congr rfl rfl rfl rfl
    cases hset : Scene.setText { state.1 with pendingText := state.1.pendingText.erase i } i text with
    | ok s' =>
      obtain ⟨hcurrent, hlater⟩ := hwaiting.setText hset
      exact ⟨hcurrent, fun _ => hlater⟩
    | error e =>
      refine ⟨hwaiting, fun _ => ?_⟩
      -- there is no such equation, and so no pass of it
      have hrefused := setText_eq_error hset
      have hnone : state.1.rows.get? i = none := hrefused
      refine hwaiting.restart (hwaiting.passes.mono fun job hj => ⟨hj.1, ?_⟩)
      rintro rfl
      obtain ⟨-, r, hr, -⟩ := hj.1
      rw [hnone] at hr
      cases hr

theorem foldl_applyEdit {state : Scene × Bool} (h : state.1.Current id n) (ids : List Nat) :
    (ids.foldl Scene.applyEdit state).1.Current id n ∧
      ∀ i ∈ ids, state.1.pendingText.contains i = true →
        (ids.foldl Scene.applyEdit state).1.Current i n := by
  -- the equation that the tickets are counted for changes at its own edit
  induction ids generalizing state id with
  | nil => exact ⟨h, nofun⟩
  | cons j ids ih =>
    obtain ⟨hcurrent, hlater⟩ := h.applyEdit j
    refine ⟨(ih hcurrent).1, fun i hi hcontains => ?_⟩
    by_cases hij : i = j
    · subst hij
      exact (ih ((hlater hcontains).earlier h.next)).1
    · have hids : i ∈ ids := (List.mem_cons.mp hi).resolve_left hij
      refine (ih hcurrent).2 i hids ?_
      rw [Keyed.contains, (edited_applyEdit state j).pendingText,
        if_neg (fun hmem => hij (List.mem_singleton.mp hmem))]
      exact hcontains

theorem applyEdits (h : s.Current id n) (now : Nat) : (s.applyEdits now).1.Current id n ∧
    ∀ i ∈ s.edits.due now, s.pendingText.contains i = true →
      (s.applyEdits now).1.Current i n := by
  have hdelivered : Scene.Current id n { s with edits := s.edits.deliver now } :=
    h.congr rfl rfl rfl rfl
  exact @foldl_applyEdit id n ({ s with edits := s.edits.deliver now }, false) hdelivered
    (s.edits.due now)

theorem applyRefreshes (h : s.Current id n) (now : Nat) :
    (s.applyRefreshes now).1.Current id n := by
  have hdelivered : Scene.Current id n { s with refreshes := s.refreshes.deliver now } :=
    h.congr rfl rfl rfl rfl
  unfold Scene.applyRefreshes
  dsimp only
  split
  · exact hdelivered
  · exact (hdelivered.foldl_refreshEquation _).refreshDerived

theorem applyScroll (h : s.Current id n) (now : Nat) : (s.applyScroll now).1.Current id n := by
  unfold Scene.applyScroll
  split
  · exact h.view rfl rfl rfl rfl
  · exact h

/-- **A result that is handed out may be kept:** it comes from a live pass, and live
passes trace the equations as they are. -/
theorem receive (h : s.Current id n) : s.receive.Current id n := by
  obtain ⟨hpasses, hfound⟩ := h.passes.receive
  have hboard : Scene.Current id n { s with jobs := s.jobs.receive.1 } :=
    { row := h.row
      row_lt := h.row_lt
      passes := hpasses
      next := by
        rw [JobBoard.nextTicket_receive]
        exact h.next }
  cases hf : s.jobs.receive.2 with
  | none =>
    rw [Scene.receive, hf]
    exact hboard
  | some f =>
    obtain ⟨job, segments, ⟨⟨hsettings, r, hr, himplicit, hfield⟩, -⟩, hresult, rfl⟩ := hfound f hf
    -- the pass was live until now, so the row is there and its field is the one traced
    rw [receive_of_some hf hr]
    refine hboard.updateRow job.id fun r' hr' => ?_
    obtain rfl : r = r' := Option.some.inj (hr.symm.trans hr')
    refine ⟨(h.row job.id r hr).setContour himplicit ?_, rfl, rfl⟩
    rw [Job.result, hfield, hsettings] at hresult
    exact hresult

theorem finish (h : s.Current id n) (ticket : Nat) (left : Option (List (Segment Float))) :
    (s.finish ticket left).Current id n := by
  unfold Scene.finish
  split
  · next job hjob =>
    exact
      { row := h.row
        row_lt := h.row_lt
        passes := h.passes.finish (List.mem_of_find?_eq_some hjob) left
        next := h.next }
  · exact h

/-! ### Every action -/

/-- **Whatever happens, everything that is kept or awaited belongs to the equations as
they are.** -/
theorem act (h : s.Current id n) (a : Action) : (s.act a).Current id n := by
  cases a with
  | add text => exact h.add text
  | addColored text color => exact h.addColored text color
  | remove i => exact after_of h fun _ hs => (h.remove hs).1
  | setText i text => exact after_of h fun _ hs => (h.setText hs).1
  | editText i text now => exact after_of h fun _ hs => h.editText hs
  | clear => exact h.clear
  | loadSheet sheet => exact h.loadSheet sheet
  | setColor i color => exact after_of h fun _ hs => h.setColor hs
  | setParameter i name value now => exact after_of h fun _ hs => (h.setParameter hs).1
  | setParameterRange i name min max => exact after_of h fun _ hs => h.setParameterRange hs
  | beginDrag => exact h.congr rfl rfl rfl rfl
  | endDrag => exact h.view rfl rfl rfl rfl
  | pan dx dy => exact h.pan dx dy
  | zoomAt px py inward now => exact h.congr rfl rfl rfl rfl
  | zoom inward => exact h.view rfl rfl rfl rfl
  | resetView => exact h.view rfl rfl rfl rfl
  | setView camera => exact h.view rfl rfl rfl rfl
  | resize width height => exact h.view rfl rfl rfl rfl
  | refreshEquation i => exact h.refreshEquation i
  | refreshAll => exact h.refreshAll
  | contour i => exact h.contour i
  | snapshot => exact h.prepared
  | togglePin x y => exact h.togglePin x y
  | click px py => exact h.click px py
  | clearPins => exact h.congr rfl rfl rfl rfl
  | applyEdits now => exact (h.applyEdits now).1
  | applyRefreshes now => exact h.applyRefreshes now
  | applyScroll now => exact h.applyScroll now
  | receive => exact h.receive
  | finish ticket left => exact h.finish ticket left

theorem run (h : s.Current id n) (actions : List Action) : (s.run actions).Current id n :=
  run_induction (fun _ a ht => ht.act a) h actions

end Current

/-- A wait leads to a scene that a run leads to, and so does a poll (`run_poll`). -/
theorem Current.exists_run_waitForContours {id n : Nat} {s : Scene} (h : s.Current id n) :
    ∃ actions, s.run actions = s.waitForContours.1 := by
  obtain ⟨log, hlog, -⟩ := h.passes
  obtain ⟨ends, taken, hrun⟩ := run_waitForContours hlog
  exact ⟨_, hrun⟩

/-! ### Writing an equation -/

/-- The action writes an equation: its text, one of its sliders, or that it is no more. -/
def Rewrites (s : Scene) (id : Nat) : Action → Prop
  | .setText i text => i = id ∧ ∃ s', s.setText i text = .ok s'
  | .setParameter i name value now => i = id ∧ ∃ s', s.setParameter i name value now = .ok s'
  | .remove i => i = id ∧ ∃ s', s.remove i = .ok s'
  | .applyEdits now => id ∈ s.edits.due now ∧ s.pendingText.contains id = true
  | _ => False

/-- When an equation is written, the passes to come have at least the next ticket. -/
theorem Current.rewrites {i n : Nat} {s : Scene} (h : s.Current i n) {id : Nat} {a : Action}
    (ha : s.Rewrites id a) : (s.act a).Current id s.jobs.nextTicket := by
  cases a with
  | setText j text =>
    obtain ⟨rfl, s', hs⟩ := ha
    rw [Scene.act, hs]
    exact (h.setText hs).2
  | setParameter j name value now =>
    obtain ⟨rfl, s', hs⟩ := ha
    rw [Scene.act, hs]
    exact (h.setParameter hs).2
  | remove j =>
    obtain ⟨rfl, s', hs⟩ := ha
    rw [Scene.act, hs]
    exact (h.remove hs).2
  | applyEdits now =>
    obtain ⟨hdue, hcontains⟩ := ha
    -- several edits may come at once, so the count is begun with an equation that is not there
    have hunused : s.Current s.nextId s.jobs.nextTicket := by
      refine h.restart (h.passes.mono fun job hj => ⟨hj.1, ?_⟩)
      obtain ⟨-, r, hr, -⟩ := hj.1
      exact Nat.ne_of_lt (h.row_lt job.id r hr)
    exact (hunused.applyEdits now).2 id hdue hcontains
  | _ => exact ha.elim

/-- The next result to be taken is that of the ticket, and it is handed out, so
`receive` keeps it. -/
def Keeps (s : Scene) (ticket : Nat) (f : Finished) : Prop :=
  (s.jobs.arrived.head?.map Outcome.ticket) = some ticket ∧ s.jobs.receive.2 = some f

/-- What is kept comes from a pass of at least the ticket that counts. -/
theorem Current.le_of_keeps {id n : Nat} {s : Scene} (h : s.Current id n) {ticket : Nat}
    {f : Finished} (hf : s.Keeps ticket f) (hid : f.id = id) : n ≤ ticket := by
  obtain ⟨hhead, hf⟩ := hf
  obtain ⟨o, ho, rfl⟩ := Option.map_eq_some_iff.mp hhead
  obtain ⟨rest, harrived⟩ := List.head?_eq_some_iff.mp ho
  -- what is handed out was in flight under its ticket, and what is in flight is live
  rw [JobBoard.receive, harrived] at hf
  obtain ⟨hsame, x, hx, ht⟩ := JobBoard.inFlight_of_accept hf
  obtain ⟨job, hj, hjob, rfl⟩ := h.passes.inFlight hx
  rw [← ht]
  exact hj.2 (hjob.trans (hsame.symm.trans hid))

/-- **Nothing stale is kept, and nothing stale comes to be kept.** After every run, the
strip and the contour of each row belong to its equation as it is. And once an equation
is written, no result of a pass is kept for it that was begun before: the tickets
from before are below `nextTicket`. -/
theorem run_caches (settings : Settings Float) (width height : Float) (before : List Action) :
    let s := (Scene.new settings width height).run before
    (∀ id r, s.rows.get? id = some r → r.Current s.settings) ∧
    ∀ id a, s.Rewrites id a → ∀ later ticket f, ((s.act a).run later).Keeps ticket f →
      f.id = id → s.jobs.nextTicket ≤ ticket := by
  intro s
  have hs : s.Current 0 0 := (Current.start settings width height).run before
  refine ⟨hs.row, fun id a ha later ticket f hf hid => ?_⟩
  have hafter : (s.act a).Current id s.jobs.nextTicket := hs.rewrites ha
  exact (hafter.run later).le_of_keeps hf hid

end CurvePlot.Scene
