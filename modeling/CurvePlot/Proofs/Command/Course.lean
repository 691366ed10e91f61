import CurvePlot.Proofs.Command.Plan
import CurvePlot.Proofs.Scene.Aimed
/-!
# How a run may go

While a run does what is planned, fine passes end at any time, and what a pass leaves that was
called off is anything. Results are only taken afterwards: in the poll, and in the wait, while
further passes end. A `Course` is a row of actions that may come about so.

Which passes are begun and which results are kept is therefore not planned. What is planned is
done all the same (`Course.held`), because no action looks at what was traced but to see about
contours. And what is traced is aimed at the view that is asked for (`Course.aimed`): until the
view is there only previews are kept, because no result was taken, and the passes that were begun
for the first view are called off by the refresh that follows.
-/

namespace CurvePlot

namespace Scene

variable {s : Scene} {actions : List Action}

/-- A pass ends. -/
def Action.isFinish : Action → Bool
  | .finish _ _ => true
  | _ => false

/-- Passes that end change nothing but the board. -/
theorem run_finishes (s : Scene) (h : ∀ x ∈ actions, x.isFinish = true) :
    ∃ jobs, s.run actions = { s with jobs := jobs } := by
  induction actions generalizing s with
  | nil => exact ⟨s.jobs, rfl⟩
  | cons x actions ih =>
    have hact : ∃ jobs, s.act x = { s with jobs := jobs } := by
      have hx := h x List.mem_cons_self
      cases x with
      | finish ticket left =>
        rw [act, finish]
        split
        · exact ⟨_, rfl⟩
        · exact ⟨s.jobs, rfl⟩
      | _ => cases hx
    obtain ⟨jobs, hact⟩ := hact
    obtain ⟨jobs', hrun⟩ := ih (s.act x) fun y hy => h y (List.mem_cons_of_mem x hy)
    rw [hact] at hrun
    exact ⟨jobs', (congrArg (run · actions) hact).trans hrun⟩

theorem Action.movesView_of_isQuiet {x : Action} (h : x.isQuiet = true) : x.movesView = false := by
  cases x <;> first | rfl | cases h

/-- **Sliders, time and passes keep the curves tended** and all contours aimed, where no text
waits and nothing scrolls. -/
theorem Aimed.quiet_run (h : s.Aimed) (htended : s.Tended s.Pending) (hcurrent : s.Current 0 0)
    (hedits : s.edits.deadlines = Keyed.empty) (hscroll : s.scrollSettlesAt = none)
    (hquiet : ∀ x ∈ actions, x.isQuiet = true) :
    (s.run actions).Aimed ∧ (s.run actions).Tended (s.run actions).Pending := by
  refine ⟨h.run hcurrent fun x hx => Action.movesView_of_isQuiet (hquiet x hx),
    htended.run hcurrent fun before hbefore => ?_⟩
  have haround : SameSurroundings s (s.run before) :=
    .run hedits hscroll fun x hx => hquiet x (hbefore.subset hx)
  rw [haround.viewport]
  exact htended.view

end Scene

namespace Command.Arguments

open Scene

variable {a : Arguments} {settings : Settings Float} {sheet : String} {actions : List Action}

/-- **A row of actions that a run may come to:** what is planned, with passes that end in between,
and then results that are taken and more passes that end. -/
def Course (a : Arguments) (settings : Settings Float) (sheet : String) (actions : List Action) :
    Prop :=
  ∃ before after, actions = before ++ after ∧
    before.filter (fun x => !x.isFinish) = a.plan settings sheet ∧
    ∀ x ∈ after, x.isFinish = true ∨ x = .receive

theorem isTracing_of_isFinish {x : Action} (h : x.isFinish = true) : x.isTracing = true := by
  cases x <;> first | rfl | cases h

/-- Nothing is planned about tracing. -/
theorem filter_isTracing_plan (a : Arguments) (settings : Settings Float) (sheet : String) :
    (a.plan settings sheet).filter (fun x => !x.isTracing) = a.plan settings sheet := by
  refine List.filter_eq_self.mpr fun x hx => ?_
  rcases List.mem_cons.mp hx with rfl | hx
  · rfl
  rcases List.mem_cons.mp hx with rfl | hx
  · rfl
  rcases List.mem_append.mp hx with hx | hx
  · obtain ⟨arg, -, harg⟩ := List.mem_flatMap.mp hx
    obtain ⟨id, -, rfl⟩ := List.mem_map.mp harg
    rfl
  · split at hx
    · cases hx
    · simp only [List.mem_cons, List.not_mem_nil, or_false] at hx
      rcases hx with rfl | rfl | rfl <;> rfl

/-- But for tracing, a run does what is planned. -/
theorem Course.filter_isTracing (h : a.Course settings sheet actions) :
    actions.filter (fun x => !x.isTracing) = a.plan settings sheet := by
  obtain ⟨before, after, rfl, hplan, hafter⟩ := h
  have hnone : after.filter (fun x => !x.isTracing) = [] := by
    refine List.filter_eq_nil_iff.mpr fun x hx => ?_
    rcases hafter x hx with hfinish | rfl
    · simp [isTracing_of_isFinish hfinish]
    · simp [Action.isTracing]
  have hbefore : before.filter (fun x => !x.isTracing) =
      (before.filter fun x => !x.isFinish).filter fun x => !x.isTracing := by
    rw [List.filter_filter]
    refine List.filter_congr fun x _ => ?_
    cases hx : x.isFinish with
    | false => simp
    | true => simp [isTracing_of_isFinish hx]
  rw [List.filter_append, hnone, List.append_nil, hbefore, hplan, filter_isTracing_plan]

/-- **However a run goes, what is planned is held** at its end. -/
theorem Course.held (h : a.Course settings sheet actions) :
    a.Held settings sheet ((a.start settings).run actions) := by
  have hsame := SameSketch.run (.refl (a.start settings)) actions
  rw [h.filter_isTracing] at hsame
  exact (held_plan a settings sheet).of_sameSketch hsame.symm

/-- **To turn to the view aims all at it,** when a sheet was just loaded. -/
theorem Loaded.aimed {s : Scene} (h : a.Loaded settings sheet s) (hcurrent : s.Current 0 0)
    (htolerance : (0.0 : Float) ≤ settings.driftTolerance) (hview : (a.view settings).Regular) :
    (s.setView (a.camera settings)).Aimed ∧
      (s.setView (a.camera settings)).Tended (s.setView (a.camera settings)).Pending := by
  let looking : Scene := { s with viewport := s.viewport.look (a.camera settings) }
  have hlooking : looking.viewport = a.view settings :=
    congrArg (Viewport.look · (a.camera settings)) h.viewport
  -- of every new equation that is implicit there is a preview, and nothing else
  have hcontour (i : Nat) (r : Row) (hr : s.rows.get? i = some r) : r.contour =
      if r.equation.isImplicit then
        some (previewOf settings (a.start settings).viewport r.equation) else none := by
    rw [h.row] at hr
    obtain ⟨text, -, rfl⟩ := Option.map_eq_some_iff.mp hr
    rw [contour_newRow, equation_newRow]
  have hcoarse : looking.Coarse := by
    intro i r c hr hc
    rw [hcontour i r hr] at hc
    split at hc
    · rw [← Option.some.inj hc]
      rfl
    · cases hc
  have htended : looking.Tended fun _ => True :=
    { tolerance := by
        show (0.0 : Float) ≤ s.settings.driftTolerance
        rwa [h.setup]
      view := hlooking ▸ hview
      preview := by
        intro i x hx
        obtain ⟨job, ⟨⟨-, r, hr, himplicit, -⟩, -⟩, rfl, -⟩ := hcurrent.passes.inFlight hx
        refine ⟨r, _, hr, (hcontour job.id r hr).trans (if_pos himplicit), rfl⟩
      served := fun _ _ _ _ _ hi => absurd trivial hi }
  have hrest : looking.refreshAll.isInteracting = false := by
    rw [(SameSurroundings.refreshAll looking).isInteracting]
    show (s.dragging || s.scrollSettlesAt.isSome) = false
    rw [h.dragging, h.scrollSettlesAt]
    rfl
  exact ⟨.of_tended htended.refreshAll (hcurrent.act (.setView (a.camera settings)))
    hcoarse.refreshAll hrest, htended.refreshAll⟩

/-- What a run does from the moment on at which the view is there is quiet. -/
theorem isQuiet_of_filter {actions : List Action} {count delay : Nat} {sliders : List SliderArg}
    (h : actions.filter (fun x => !x.isFinish) = slideActions count delay sliders) :
    ∀ x ∈ actions, x.isQuiet = true := by
  intro x hx
  cases hfinish : x.isFinish with
  | true => cases x <;> first | rfl | cases hfinish
  | false =>
    have hkept : x ∈ actions.filter fun x => !x.isFinish :=
      List.mem_filter.mpr ⟨hx, by rw [hfinish]; rfl⟩
    rw [h] at hkept
    exact isQuiet_of_mem_slideActions hkept

/-- **However a run goes, all is aimed** at the view that is asked for, and tended. -/
theorem Course.aimed (h : a.Course settings sheet actions)
    (htolerance : (0.0 : Float) ≤ settings.driftTolerance) (hview : (a.view settings).Regular) :
    let s := (a.start settings).run actions
    s.Aimed ∧ s.Tended s.Pending := by
  obtain ⟨before, after, rfl, hplan, hafter⟩ := h
  -- passes may end before the sheet is loaded, and again before the view is changed
  obtain ⟨first, loading, rfl, hfirst, -, hloading⟩ := List.filter_eq_cons_iff.mp hplan
  obtain ⟨second, sliding, rfl, hsecond, -, hsliding⟩ := List.filter_eq_cons_iff.mp hloading
  have hends {ends : List Action} (hno : ∀ x ∈ ends, ¬(!x.isFinish) = true) :
      ∀ x ∈ ends, x.isFinish = true := fun x hx => by simpa using hno x hx
  -- the sheet is loaded and the view is still the first one
  let opened : Scene := (((a.start settings).run first).act (.loadSheet sheet)).run second
  have hstarted := run_finishes (a.start settings) (hends hfirst)
  have hcurrent := (current_start a settings).run first
  have hopened : a.Loaded settings sheet opened := by
    obtain ⟨jobs, heq⟩ := run_finishes (((a.start settings).run first).act (.loadSheet sheet))
      (hends hsecond)
    rw [show opened = _ from heq]
    exact (loaded_loadSheet hcurrent hstarted sheet).withJobs jobs
  have hcurrent : opened.Current 0 0 := (hcurrent.act (.loadSheet sheet)).run second
  obtain ⟨haimed, htended⟩ := hopened.aimed hcurrent htolerance hview
  have hlooked : SameSurroundings
      { opened with viewport := opened.viewport.look (a.camera settings) }
      (opened.setView (a.camera settings)) := .refreshAll _
  -- from there on only sliders move and passes end
  have hquiet : ∀ x ∈ sliding ++ after, x.isQuiet = true := by
    intro x hx
    rcases List.mem_append.mp hx with hx | hx
    · exact isQuiet_of_filter hsliding x hx
    · rcases hafter x hx with hfinish | rfl
      · cases x <;> first | rfl | cases hfinish
      · rfl
  have hrun : (a.start settings).run
      ((first ++ .loadSheet sheet :: (second ++ .setView (a.camera settings) :: sliding)) ++ after) =
        (opened.setView (a.camera settings)).run (sliding ++ after) := by
    simp only [List.append_assoc, List.cons_append, run_append, run_cons]
    rfl
  rw [hrun]
  refine haimed.quiet_run htended (hcurrent.act (.setView (a.camera settings))) ?_
    (hlooked.scrollSettlesAt.trans hopened.scrollSettlesAt) hquiet
  rw [hlooked.edits]
  exact hopened.bare.edits

/-! ### The run of the program -/

theorem applySlider_eq {s : Scene} {count : Nat} (hkeys : s.rows.keys = List.range count)
    (arg : SliderArg) : applySlider s arg =
      s.run ((List.range count).map fun id => .setParameter id arg.name arg.value 0) := by
  rw [Scene.run, List.foldl_map, ← hkeys, applySlider]
  congr 1
  funext t id
  show _ = t.after _
  cases t.setParameter id arg.name arg.value 0 <;> rfl

theorem foldl_applySlider {s : Scene} {count : Nat} (hkeys : s.rows.keys = List.range count)
    (sliders : List SliderArg) :
    sliders.foldl applySlider s = s.run (sliderActions count sliders) := by
  induction sliders generalizing s with
  | nil => rfl
  | cons arg sliders ih =>
    have hsame : (applySlider s arg).rows.keys = s.rows.keys := by
      rw [applySlider_eq hkeys, Scene.run, List.foldl_map]
      exact (List.foldlRecOn (List.range count) _ (motive := SameSurroundings s) (.refl s)
        fun t ht id _ => ht.trans (.setParameter t id arg.name arg.value 0)).keys
    rw [List.foldl_cons, ih (hsame.trans hkeys), applySlider_eq hkeys, ← run_append]
    rfl

/-- To apply the sliders is a row of actions. -/
theorem run_applySliders {s : Scene} {count : Nat} (hkeys : s.rows.keys = List.range count)
    (sliders : List SliderArg) : ∃ taken,
      s.run (slideActions count s.settings.parameterDelay sliders ++ List.replicate taken .receive) =
        applySliders s sliders := by
  unfold applySliders slideActions
  split
  · next hnone =>
    refine ⟨0, ?_⟩
    rw [List.isEmpty_iff.mp hnone]
    rfl
  · obtain ⟨taken, htaken⟩ := run_poll (sliders.foldl applySlider s) s.settings.parameterDelay
    refine ⟨taken, ?_⟩
    rw [List.append_assoc, run_append, ← foldl_applySlider hkeys]
    exact htaken

/-- After a wait nothing is awaited. -/
theorem runningCount_waitForContours {s : Scene} (hcurrent : s.Current 0 0) :
    s.waitForContours.1.jobs.runningCount = 0 := by
  have hjobs : s.waitForContours.1.jobs = s.jobs.completeAll.drain.1 := by
    show (Scene.install { s.completePasses with jobs := s.jobs.completeAll.drain.1 }
      s.jobs.completeAll.drain.2).1.jobs = _
    rw [install_jobs]
  obtain ⟨actions, hrun⟩ := hcurrent.exists_run_waitForContours
  obtain ⟨log, hlog, -⟩ := (hcurrent.run actions).passes
  rw [hrun] at hlog
  refine hlog.kept.runningCount_eq_zero ?_ ?_
  · rw [hjobs]
    rfl
  · rw [hjobs]
    rfl

/-- **The run of the program is one of the ways that it may go,** in which all passes come to
their end. -/
theorem exists_course (a : Arguments) (settings : Settings Float) (sheet : String) :
    ∃ actions, a.Course settings sheet actions ∧
      ((a.start settings).run actions).jobs.runningCount = 0 ∧
      a.snapshot settings sheet = ((a.start settings).run actions).snapshot.2 := by
  have hloaded := loaded_loadSheet (current_start a settings) ⟨_, rfl⟩ sheet
  let looking : Scene := ((a.start settings).loadSheet sheet).1.setView (a.camera settings)
  have hlooked : SameSurroundings _ looking := .refreshAll _
  have hcurrent : looking.Current 0 0 :=
    ((current_start a settings).act (.loadSheet sheet)).act (.setView (a.camera settings))
  -- the poll takes what has arrived by then, and the wait lets all passes end and takes the rest
  obtain ⟨taken, hslid⟩ := run_applySliders (hlooked.keys.trans hloaded.keys) a.sliders
  rw [hlooked.settings.trans hloaded.setup] at hslid
  have hcurrent : (applySliders looking a.sliders).Current 0 0 := hslid ▸ hcurrent.run _
  obtain ⟨log, hlog, -⟩ := hcurrent.passes
  obtain ⟨ends, taken', hwaited⟩ := run_waitForContours hlog
  let after : List Action := List.replicate taken .receive ++
    (ends.map (fun e => .finish e.1 e.2) ++ List.replicate taken' .receive)
  have hrun : (a.start settings).run (a.plan settings sheet ++ after) =
      (applySliders looking a.sliders).waitForContours.1 := by
    rw [← hwaited, ← hslid, ← run_append, List.append_assoc]
    rfl
  refine ⟨a.plan settings sheet ++ after, ⟨a.plan settings sheet, after, rfl, ?_, ?_⟩, ?_, ?_⟩
  · refine List.filter_eq_self.mpr fun x hx => ?_
    rw [← filter_isTracing_plan] at hx
    have hplanned := (List.mem_filter.mp hx).2
    cases hfinish : x.isFinish with
    | false => rfl
    | true => simp [isTracing_of_isFinish hfinish] at hplanned
  · intro x hx
    simp only [after, List.mem_append, List.mem_replicate, List.mem_map] at hx
    rcases hx with ⟨-, rfl⟩ | ⟨e, -, rfl⟩ | ⟨-, rfl⟩
    · exact .inr rfl
    · exact .inl rfl
    · exact .inr rfl
  · rw [hrun]
    exact runningCount_waitForContours hcurrent
  · rw [hrun]
    rfl

end Command.Arguments

end CurvePlot
