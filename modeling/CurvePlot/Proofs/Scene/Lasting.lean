import CurvePlot.Proofs.Keyed
import CurvePlot.Proofs.Scene.Steady
import CurvePlot.Proofs.Scene.Texts
/-!
# What lasts of an equation

Much happens to a scene, but little happens to the equations in it. A text is compiled,
with the probe of the scene. It takes over the sliders of the text before it. A slider
moves, and a slider is given another range. What is kept ready, the colors, the view and
the passes in the background come and go without an equation being touched.

A property of equations that these four preserve is `Lasting`. It is enough to look at the
four, as a lasting property holds of every equation of a scene after every run
(`EveryEquation.run`).
-/

namespace CurvePlot

/-- **The property outlives what happens to an equation:** it holds of every text that is
compiled, and stays when sliders are taken over, moved or given another range. -/
structure Equation.Lasting (probe : Float) (P : Equation → Prop) : Prop where
  /-- It holds of what was just compiled. -/
  compile (text : String) : P (Equation.compile text probe)
  /-- It stays when sliders are taken over, -/
  inherit {eq old : Equation} : P eq → P old →
    P { eq with parameters := eq.parameters.inherit old.parameters }
  /-- when a slider moves -/
  set {eq : Equation} {name : Char} {value : Float} {moved : Parameter.Table} : P eq →
    eq.parameters.set? name value = some moved → P { eq with parameters := moved }
  /-- and when a slider is given another range. -/
  setRange {eq : Equation} {name : Char} {min max : Float} {p q : Parameter} : P eq →
    eq.parameters.get? name = some p → p.setRange? min max = some q →
    P { eq with parameters := eq.parameters.insert name q }

namespace Scene

variable {settings : Settings Float} {P : Equation → Prop} {s s' : Scene} {id : Nat}

/-- **The property holds of every equation,** and the settings are the given ones. -/
structure EveryEquation (settings : Settings Float) (P : Equation → Prop) (s : Scene) : Prop where
  /-- The settings have not changed. -/
  setup : s.settings = settings
  /-- Each row has an equation with the property. -/
  row : ∀ i r, s.rows.get? i = some r → P r.equation

namespace EveryEquation

/-- A new scene has no equations. -/
theorem start (settings : Settings Float) (P : Equation → Prop) (width height : Float) :
    (Scene.new settings width height).EveryEquation settings P where
  setup := rfl
  row _ _ hr := by cases hr

/-- Only the rows and the settings matter. -/
theorem congr (h : s.EveryEquation settings P) (hsettings : s'.settings = s.settings)
    (hrows : s'.rows = s.rows) : s'.EveryEquation settings P where
  setup := hsettings.trans h.setup
  row i r hr := h.row i r (hrows ▸ hr)

/-- A refresh keeps the equations that there are. -/
theorem refreshed (h : s.EveryEquation settings P) (hsettings : s'.settings = s.settings)
    (hsame : Refreshed s s') : s'.EveryEquation settings P where
  setup := hsettings.trans h.setup
  row i r hr := by
    -- each row has the equation that it had before
    obtain ⟨old, hold, heq⟩ := hsame.equation i r hr
    rw [heq]
    exact h.row i old hold

/-- A row may be written anew with any equation that has the property. -/
theorem updateRow (h : s.EveryEquation settings P) (i : Nat) {f : Row → Row}
    (hf : ∀ r, s.rows.get? i = some r → P (f r).equation) :
    (s.updateRow i f).EveryEquation settings P where
  setup := h.setup
  row j r hr := by
    by_cases hj : j = i
    · subst hj
      rw [Scene.updateRow, Keyed.get?_modify_self] at hr
      obtain ⟨old, hold, rfl⟩ := Option.map_eq_some_iff.mp hr
      -- the row that is written anew
      exact hf old hold
    · rw [Scene.updateRow, Keyed.get?_modify_of_ne s.rows f hj] at hr
      exact h.row j r hr

/-- A row may be changed that keeps its equation. -/
theorem touchRow (h : s.EveryEquation settings P) (i : Nat) {f : Row → Row}
    (hf : ∀ r, (f r).equation = r.equation) : (s.updateRow i f).EveryEquation settings P :=
  h.updateRow i fun r hr => by
    rw [hf]
    exact h.row i r hr

/-- A row may be put in that has an equation with the property. -/
theorem insert (h : s.EveryEquation settings P) (hsettings : s'.settings = s.settings) {i : Nat}
    {r : Row} (hr : P r.equation) (hrows : s'.rows = s.rows.insert i r) :
    s'.EveryEquation settings P where
  setup := hsettings.trans h.setup
  row j r' hr' := by
    rw [hrows] at hr'
    by_cases hj : j = i
    · subst hj
      rw [Keyed.get?_insert_self] at hr'
      cases hr'
      exact hr
    · rw [Keyed.get?_insert_of_ne s.rows r hj] at hr'
      exact h.row j r' hr'

/-! ### Refreshing -/

/-- Landmarks do not touch the equations. -/
theorem refreshDerived (h : s.EveryEquation settings P) :
    s.refreshDerived.EveryEquation settings P := h.congr rfl rfl

/-- Neither does the refresh of one equation, -/
theorem refreshEquation (h : s.EveryEquation settings P) (i : Nat) :
    (s.refreshEquation i).EveryEquation settings P := by
  refine h.refreshed ?_ (.refreshEquation s i)
  cases hr : s.rows.get? i with
  | none => rw [refreshEquation_of_none hr]
  | some r =>
    obtain ⟨f, jobs, heq, -⟩ := refreshEquation_eq hr
    rw [heq]

/-- of several -/
theorem foldl_refreshEquation (h : s.EveryEquation settings P) (ids : List Nat) :
    (ids.foldl Scene.refreshEquation s).EveryEquation settings P :=
  List.foldlRecOn ids Scene.refreshEquation (motive := EveryEquation settings P) h
    fun _ hs i _ => hs.refreshEquation i

/-- or of all. -/
theorem refreshAll (h : s.EveryEquation settings P) : s.refreshAll.EveryEquation settings P :=
  (h.foldl_refreshEquation s.rows.keys).refreshDerived

/-! ### Editing -/

section Lasting

variable (hP : Equation.Lasting settings.linearProbe P)

include hP

/-- A text is compiled with the probe of the scene, so the result has the property. -/
theorem compile (h : s.EveryEquation settings P) (text : String) : P (s.compile text) := by
  rw [Scene.compile, h.setup]
  exact hP.compile text

/-- So has an equation that is added, -/
theorem addColored (h : s.EveryEquation settings P) (text : String) (color : Color) :
    (s.addColored text color).EveryEquation settings P := by
  have hrow : P (Row.fresh (s.compile text) color).equation := h.compile hP text
  have hput : EveryEquation settings P { s with
      rows := s.rows.insert s.nextId (Row.fresh (s.compile text) color)
      nextId := s.nextId + 1 } := h.insert rfl hrow rfl
  exact (hput.refreshEquation s.nextId).refreshDerived

/-- whatever its color, -/
theorem add (h : s.EveryEquation settings P) (text : String) :
    (s.add text).EveryEquation settings P :=
  addColored (s := { s with palette := s.palette.advance }) hP (h.congr rfl rfl) text
    s.palette.upcoming

/-- and so have those of a whole sheet. -/
theorem foldl_add (h : s.EveryEquation settings P) (texts : List String) :
    (texts.foldl Scene.add s).EveryEquation settings P :=
  List.foldlRecOn texts Scene.add (motive := EveryEquation settings P) h
    fun _ hs text _ => hs.add hP text

omit hP in
/-- No equation is left in a cleared scene. -/
theorem clear (h : s.EveryEquation settings P) : s.clear.EveryEquation settings P where
  setup := h.setup
  row _ _ hr := by cases hr

omit hP in
/-- When one is removed, the others stay. -/
theorem remove (h : s.EveryEquation settings P) (hs : s.remove id = .ok s') :
    s'.EveryEquation settings P := by
  obtain ⟨-, rfl⟩ := remove_eq_ok hs
  exact ⟨h.setup, fun i r hr => h.row i r (Keyed.get?_of_get?_erase hr)⟩

/-- A new text takes over the sliders of the one before. -/
theorem setText (h : s.EveryEquation settings P) {text : String}
    (hs : s.setText id text = .ok s') : s'.EveryEquation settings P := by
  rcases setText_eq_ok hs with ⟨-, hremove⟩ | ⟨-, r, hr, rfl⟩
  · exact h.remove hremove
  · have hrow : P (r.retyped (s.compile text)).equation :=
      hP.inherit (h.compile hP text) (h.row id r hr)
    have hput : EveryEquation settings P { s with
        rows := s.rows.insert id (r.retyped (s.compile text))
        jobs := s.jobs.cancel id
        refreshes := s.refreshes.cancel id } := h.insert rfl hrow rfl
    exact (hput.refreshEquation id).refreshDerived

/-- A slider that moves is one of the four. -/
theorem setParameter (h : s.EveryEquation settings P) {name : Char} {value : Float} {now : Nat}
    (hs : s.setParameter id name value now = .ok s') : s'.EveryEquation settings P := by
  obtain ⟨r, parameters, hr, hset, rfl⟩ := setParameter_eq_ok hs
  -- the row that is rewritten is that of the slider
  have hmoved := h.updateRow id
    (f := fun r => Row.evict { r with equation := { r.equation with parameters := parameters } })
    fun old hold => by
      obtain rfl : r = old := Option.some.inj (hr.symm.trans hold)
      exact hP.set (h.row id r hr) hset
  exact hmoved.congr rfl rfl

/-- The range of a slider is another. -/
theorem setParameterRange (h : s.EveryEquation settings P) {name : Char} {min max : Float}
    (hs : s.setParameterRange id name min max = .ok s') : s'.EveryEquation settings P := by
  obtain ⟨r, p, q, hr, hp, hq, rfl⟩ := setParameterRange_eq_ok hs
  refine h.updateRow id fun old hold => ?_
  obtain rfl : r = old := Option.some.inj (hr.symm.trans hold)
  exact hP.setRange (h.row id r hr) hp hq

end Lasting

/-! ### Looking, and the parts of a poll -/

/-- A contour is traced from an equation and leaves it alone. -/
theorem contour (h : s.EveryEquation settings P) (i : Nat) :
    (s.contour i).1.EveryEquation settings P := by
  unfold Scene.contour
  split
  · exact h
  · split
    · exact h
    · exact h.touchRow i fun _ => rfl

/-- Pins are set beside the equations. -/
theorem togglePin (h : s.EveryEquation settings P) (x y : Float) :
    (s.togglePin x y).1.EveryEquation settings P := by
  unfold Scene.togglePin
  dsimp only
  split
  · exact h.congr rfl rfl
  · exact h.congr rfl rfl

/-- An edit that is due sets its text. -/
theorem applyEdit (hP : Equation.Lasting settings.linearProbe P) {state : Scene × Bool}
    (h : state.1.EveryEquation settings P) (i : Nat) :
    (Scene.applyEdit state i).1.EveryEquation settings P := by
  unfold Scene.applyEdit
  split
  · exact h
  · dsimp only
    have hwaiting : EveryEquation settings P
        { state.1 with pendingText := state.1.pendingText.erase i } := h.congr rfl rfl
    split
    · next hs => exact hwaiting.setText hP hs
    · exact hwaiting

/-- A result is put beside the equation. -/
theorem installOne {state : Scene × Bool} (h : state.1.EveryEquation settings P) (f : Finished) :
    (Scene.installOne state f).1.EveryEquation settings P := by
  unfold Scene.installOne
  split
  · exact h.touchRow f.id fun _ => rfl
  · exact h

/-- **Whatever happens, what lasts stays.** -/
theorem act (hP : Equation.Lasting settings.linearProbe P) (s : Scene) (a : Action)
    (h : s.EveryEquation settings P) : (s.act a).EveryEquation settings P := by
  -- to move the view is to refresh everything, which touches no equation
  have hview : ∀ s' : Scene, s'.settings = s.settings → s'.rows = s.rows →
      s'.refreshAll.EveryEquation settings P := fun s' hsettings hrows =>
    (h.congr hsettings hrows).refreshAll
  -- those that touch an equation do one of the four things to it
  cases a with
  | add text => exact h.add hP text
  | addColored text color => exact h.addColored hP text color
  | remove id => exact after_of h fun _ hs => h.remove hs
  | setText id text => exact after_of h fun _ hs => h.setText hP hs
  | editText id text now =>
    refine after_of h fun _ hs => ?_
    obtain ⟨-, rfl⟩ := editText_eq_ok hs
    exact h.congr rfl rfl
  | clear => exact h.clear
  | loadSheet sheet => exact h.clear.foldl_add hP _
  | setColor id color =>
    refine after_of h fun _ hs => ?_
    rw [setColor_eq_ok hs]
    exact h.touchRow id fun _ => rfl
  | setParameter id name value now => exact after_of h fun _ hs => h.setParameter hP hs
  | setParameterRange id name min max => exact after_of h fun _ hs => h.setParameterRange hP hs
  | beginDrag => exact h.congr rfl rfl
  | endDrag => exact hview _ rfl rfl
  | pan dx dy =>
    rw [Scene.act, pan]
    split
    · exact h.congr rfl rfl
    · exact hview _ rfl rfl
  | zoomAt px py inward now => exact h.congr rfl rfl
  | zoom inward => exact hview _ rfl rfl
  | resetView => exact hview _ rfl rfl
  | setView camera => exact hview _ rfl rfl
  | resize width height => exact hview _ rfl rfl
  | refreshEquation id => exact h.refreshEquation id
  | refreshAll => exact h.refreshAll
  | contour id => exact h.contour id
  | snapshot =>
    exact List.foldlRecOn s.rows.keys (fun s id => (Scene.contour s id).1)
      (motive := EveryEquation settings P) h fun _ hs id _ => hs.contour id
  | togglePin x y => exact h.togglePin x y
  | click px py =>
    rw [Scene.act, click]
    split
    · exact h
    · exact h.togglePin _ _
  | clearPins => exact h.congr rfl rfl
  | applyEdits now =>
    refine List.foldlRecOn (s.edits.due now) Scene.applyEdit
      (motive := fun state => state.1.EveryEquation settings P) ?_
      fun _ hstate id _ => applyEdit hP hstate id
    exact h.congr rfl rfl
  | applyRefreshes now =>
    have hdelivered : EveryEquation settings P { s with refreshes := s.refreshes.deliver now } :=
      h.congr rfl rfl
    rw [Scene.act, applyRefreshes]
    split
    · exact hdelivered
    · exact (hdelivered.foldl_refreshEquation _).refreshDerived
  | applyScroll now =>
    rw [Scene.act, applyScroll]
    split
    · exact hview _ rfl rfl
    · exact h
  | receive =>
    refine List.foldlRecOn s.jobs.receive.2.toList Scene.installOne
      (motive := fun state => state.1.EveryEquation settings P) ?_
      fun _ hstate f _ => installOne hstate f
    exact h.congr rfl rfl
  | finish ticket left =>
    rw [Scene.act, finish]
    split
    · exact h.congr rfl rfl
    · exact h

/-- So what lasts holds of every equation after every run. -/
theorem run (hP : Equation.Lasting settings.linearProbe P) (width height : Float)
    (actions : List Action) :
    ((Scene.new settings width height).run actions).EveryEquation settings P :=
  run_induction (act hP) (start settings P width height) actions

end EveryEquation

end Scene

end CurvePlot
