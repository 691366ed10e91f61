import CurvePlot.Proofs.Command.Sliders
import CurvePlot.Proofs.Scene.Loading
/-!
# What a run does, fine passes aside

A run of the program loads a sheet, turns to the view that is asked for, sets the sliders, and
lets them come to rest (`Arguments.plan`). Contours aside, each line of the sheet is then held as
the row that belongs to it (`Arguments.row`, `state?_plan`): the equation of the line with its
sliders at the last of their values, and the strip of its graph under the view. A strip that was
sampled for the view before is used if no slider of the equation was moved.

That all sliders come to rest in one poll is because all are set at one moment, and the poll is
one delay later (`due_of_sliders`).
-/

namespace CurvePlot

namespace Scene

variable {s : Scene} {id n : Nat}

/-! ### Rows of a sheet -/

/-- The rows of texts, by their places. -/
theorem getElem?_newRows (settings : Settings Float) (view : Viewport Float) (palette : Palette)
    (texts : List String) (i : Nat) : (newRows settings view palette texts)[i]? =
      texts[i]?.map fun text =>
        newRow settings view text (Palette.mk (palette.given + i)).upcoming := by
  induction texts generalizing palette i with
  | nil => rfl
  | cons text texts ih =>
    rw [newRows]
    cases i with
    | zero => rfl
    | succ i =>
      rw [List.getElem?_cons_succ, List.getElem?_cons_succ, ih, Palette.advance]
      congr 2
      rw [Nat.add_assoc, Nat.add_comm 1 i]

theorem sketch_newRow (settings : Settings Float) (view : Viewport Float) (text : String)
    (color : Color) :
    let eq := Equation.compile text settings.linearProbe
    (newRow settings view text color).sketch =
      ⟨eq, color, if eq.isExplicit then some (refreshedStrip settings view eq none) else none,
        none⟩ := by
  intro eq
  unfold newRow Equation.isExplicit
  dsimp only
  cases hclass : (Equation.compile text settings.linearProbe).classification <;>
    rfl

theorem contour_newRow (settings : Settings Float) (view : Viewport Float) (text : String)
    (color : Color) :
    let eq := Equation.compile text settings.linearProbe
    (newRow settings view text color).contour =
      if eq.isImplicit then some (previewOf settings view eq) else none := by
  intro eq
  unfold newRow Equation.isImplicit
  dsimp only
  cases hclass : (Equation.compile text settings.linearProbe).classification <;>
    rfl

/-- Where no number was given out before, the lines are numbered from zero. -/
theorem keys_loadSheet (h : s.Current id n) (hnext : s.nextId = 0) (sheet : String) :
    (s.loadSheet sheet).1.rows.keys = List.range (Sheet.read sheet).length := by
  have hkeys := (extended_loadSheet h sheet).keys
  change _ = [] ++ List.range' s.nextId _ at hkeys
  rw [hkeys, hnext, List.nil_append, List.range_eq_range']

theorem get?_loadSheet (h : s.Current id n) (hnext : s.nextId = 0) (sheet : String) (i : Nat) :
    (s.loadSheet sheet).1.rows.get? i = (Sheet.read sheet)[i]?.map fun text =>
      newRow s.settings s.viewport text (Palette.mk i).upcoming := by
  rw [Keyed.get?_eq_getElem? (keys_loadSheet h hnext sheet), rows_loadSheet, getElem?_newRows]
  congr 2
  funext text
  rw [Nat.zero_add]

end Scene

namespace Command

open Scene

namespace Arguments

variable (a : Arguments) (settings : Settings Float) (sheet : String)

/-- The scene that a run begins with. -/
def start : Scene := .new settings a.width.value a.height.value

/-- The view that is asked for. -/
def view : Viewport Float := ⟨a.camera settings, a.width.value, a.height.value⟩

/-- **What a run does** before it waits: sheet, view, sliders, and the parts of one poll. Without
sliders there is no poll. -/
def plan : List Action :=
  .loadSheet sheet :: .setView (a.camera settings) ::
    slideActions (Sheet.read sheet).length settings.parameterDelay a.sliders

/-- **The row of a line at the end of a run.** -/
def row (text : String) (color : Color) : Row :=
  let compiled := Equation.compile text settings.linearProbe
  let eq := tuned a.sliders compiled
  let before :=
    if moves a.sliders compiled then none
    else some (refreshedStrip settings (a.start settings).viewport compiled none)
  { equation := eq
    color := color
    strip :=
      if eq.isExplicit then some (refreshedStrip settings (a.view settings) eq before) else none
    contour :=
      if eq.isImplicit then
        some ⟨(Contour.fine eq.field (a.view settings) settings false).getD [], a.view settings,
          .fine⟩
      else none }

variable {a settings sheet}

/-- The way of a row through a run: it is made under the first view and refreshed under the
other, its sliders are set, and it is refreshed again if one was moved. -/
theorem rested_sketch_newRow (text : String) (color : Color) :
    rested settings (a.view settings)
      (a.sliders.foldl (fun x arg => slid arg.name arg.value x)
        ((newRow settings (a.start settings).viewport text color).sketch.refreshed settings
          (a.view settings), false)) =
      ((a.row settings text color).sketch, false) := by
  rw [sketch_newRow]
  exact rested_foldl_slid settings (a.view settings) a.sliders _ color _

/-- **What is held at the end of a run,** contours aside: the rows of the lines, under the view
that is asked for, and nothing that moves or waits. -/
structure Held (a : Arguments) (settings : Settings Float) (sheet : String) (s : Scene) : Prop where
  setup : s.settings = settings
  viewport : s.viewport = a.view settings
  isInteracting : s.isInteracting = false
  pins : s.pins = []
  keys : s.rows.keys = List.range (Sheet.read sheet).length
  idle : ∀ i, s.refreshes.isPending i = false
  row : ∀ i, (s.rows.get? i).map Row.sketch = (Sheet.read sheet)[i]?.map fun text =>
    (a.row settings text (Palette.mk i).upcoming).sketch

theorem Held.of_sameSketch {s t : Scene} (h : a.Held settings sheet s) (hsame : SameSketch s t) :
    a.Held settings sheet t := by
  have haround := SameSurroundings.of_sameSketch hsame
  refine ⟨haround.settings.trans h.setup, haround.viewport.trans h.viewport,
    haround.isInteracting.trans h.isInteracting, haround.pins.trans h.pins,
    haround.keys.trans h.keys, fun i => ?_, fun i => ?_⟩
  · obtain ⟨rows, jobs, rfl, -⟩ := hsame
    exact h.idle i
  · rw [hsame.rows i, h.row]

theorem current_start (a : Arguments) (settings : Settings Float) :
    (a.start settings).Current 0 0 := .start settings a.width.value a.height.value

/-- What a sheet that was loaded first leaves behind: new rows, under the first view, and nothing
that moves or waits. -/
structure Loaded (a : Arguments) (settings : Settings Float) (sheet : String) (s : Scene) :
    Prop where
  setup : s.settings = settings
  viewport : s.viewport = (a.start settings).viewport
  dragging : s.dragging = false
  scrollSettlesAt : s.scrollSettlesAt = none
  bare : s.Bare
  delay : s.refreshes.delay = settings.parameterDelay
  keys : s.rows.keys = List.range (Sheet.read sheet).length
  row : ∀ i, s.rows.get? i = (Sheet.read sheet)[i]?.map fun text =>
    newRow settings (a.start settings).viewport text (Palette.mk i).upcoming

/-- **A sheet is loaded first,** whatever passes there are. -/
theorem loaded_loadSheet {s : Scene} (hcurrent : s.Current 0 0)
    (hs : ∃ jobs, s = { a.start settings with jobs := jobs }) (sheet : String) :
    a.Loaded settings sheet (s.loadSheet sheet).1 := by
  obtain ⟨hsettings, hviewport, hdragging, hscroll, hdelay, hnext⟩ :
      s.settings = settings ∧ s.viewport = (a.start settings).viewport ∧ s.dragging = false ∧
        s.scrollSettlesAt = none ∧ s.refreshes.delay = settings.parameterDelay ∧ s.nextId = 0 := by
    obtain ⟨jobs, rfl⟩ := hs
    exact ⟨rfl, rfl, rfl, rfl, rfl, rfl⟩
  have hrow := get?_loadSheet hcurrent hnext sheet
  rw [hsettings, hviewport] at hrow
  obtain ⟨rows, jobs, intercepts, intersections, hframe⟩ := (extended_loadSheet hcurrent sheet).frame
  refine ⟨?_, ?_, ?_, ?_, bare_loadSheet hcurrent sheet, ?_, keys_loadSheet hcurrent hnext sheet,
    hrow⟩
  all_goals rw [hframe]
  · exact hsettings
  · exact hviewport
  · exact hdragging
  · exact hscroll
  · exact hdelay

theorem Loaded.withJobs {s : Scene} (h : a.Loaded settings sheet s) (jobs : JobBoard) :
    a.Loaded settings sheet { s with jobs := jobs } where
  setup := h.setup
  viewport := h.viewport
  dragging := h.dragging
  scrollSettlesAt := h.scrollSettlesAt
  bare := ⟨h.bare.pins, h.bare.pendingText, h.bare.edits, h.bare.refreshes⟩
  delay := h.delay
  keys := h.keys
  row := h.row

theorem Loaded.state {s : Scene} (h : a.Loaded settings sheet s) (i : Nat) :
    s.state? i = (Sheet.read sheet)[i]?.map fun text =>
      ((newRow settings (a.start settings).viewport text (Palette.mk i).upcoming).sketch, false) := by
  have hrests : s.refreshes.isPending i = false := by
    rw [Debouncer.isPending, Keyed.contains, h.bare.refreshes]
    rfl
  rw [state?, hrests, h.row, Option.map_map]
  rfl

/-- **From there a run goes on** to the rows that it ends with. -/
theorem Loaded.held {s : Scene} (h : a.Loaded settings sheet s) :
    a.Held settings sheet ((s.setView (a.camera settings)).run
      (slideActions (Sheet.read sheet).length settings.parameterDelay a.sliders)) := by
  -- the scene with the new view, before it is refreshed
  let looking : Scene := { s with viewport := s.viewport.look (a.camera settings) }
  have hview : looking.viewport = a.view settings :=
    congrArg (Viewport.look · (a.camera settings)) h.viewport
  have hlooked : SameSurroundings looking looking.refreshAll := .refreshAll looking
  have hscroll : looking.refreshAll.scrollSettlesAt = none :=
    hlooked.scrollSettlesAt.trans h.scrollSettlesAt
  have hwaits : Asked [] looking.refreshAll := by
    have hlook : NoNewWait s looking := .of_eq rfl rfl rfl
    exact h.bare.asked.mono (hlook.trans (.refreshAll looking)) fun _ hb => hb
  have hslid : SameSurroundings looking.refreshAll (looking.refreshAll.run
      (slideActions (Sheet.read sheet).length settings.parameterDelay a.sliders)) :=
    .run (hlooked.edits ▸ h.bare.edits) hscroll fun b hb => isQuiet_of_mem_slideActions hb
  have haround := hlooked.trans hslid
  have hrest : looking.isInteracting = false := by
    show (s.dragging || s.scrollSettlesAt.isSome) = false
    rw [h.dragging, h.scrollSettlesAt]
    rfl
  refine ⟨haround.settings.trans h.setup, haround.viewport.trans hview,
    haround.isInteracting.trans hrest, haround.pins.trans h.bare.pins, haround.keys.trans h.keys,
    fun i => ?_, fun i => ?_⟩
  · have hidle := isPending_slideActions hwaits hscroll (Sheet.read sheet).length a.sliders i
    rwa [hlooked.refreshDelay.trans h.delay] at hidle
  · -- refreshed, then with sliders moved, then at rest: what `rested_sketch_newRow` is about
    have hslide := state?_slideActions hwaits hscroll (hlooked.keys.trans h.keys) a.sliders i
    rw [hlooked.refreshDelay.trans h.delay, state?_refreshAll, hlooked.settings, hlooked.viewport,
      hview, show looking.settings = settings from h.setup,
      show looking.state? i = _ from h.state i] at hslide
    have hrow := congrArg (Option.map Prod.fst) hslide
    rw [state?, Option.map_map] at hrow
    refine hrow.trans ?_
    cases (Sheet.read sheet)[i]? with
    | none => rfl
    | some text => exact congrArg (fun x => some x.1) (rested_sketch_newRow text _)

/-- **What is done according to plan** is done to the row of every line. -/
theorem held_plan (a : Arguments) (settings : Settings Float) (sheet : String) :
    a.Held settings sheet ((a.start settings).run (a.plan settings sheet)) :=
  (loaded_loadSheet (current_start a settings) ⟨_, rfl⟩ sheet).held

end Arguments

end Command

end CurvePlot
