import CurvePlot.Proofs.Command.Course
import CurvePlot.Proofs.Snapshot
/-!
# What a run shows

`Arguments.final` is the snapshot that a run ends with, said without any run: of each line of the
sheet the row that belongs to it (`Arguments.row`), with a fine contour if it is implicit, and the
landmarks of these rows, all under the view that is asked for.

However a run goes, if no pass is awaited in the end its snapshot is this one
(`Course.snapshot_eq`). For then every implicit curve is kept as the fine pass finds it under the
view, so nothing is traced for the snapshot; contours aside the rows are those that are planned;
and the landmarks are those of the rows.
-/

namespace CurvePlot

namespace Row

/-- The row with its contour as if it had been traced under a view. -/
def under (view : Viewport Float) (r : Row) : Row :=
  { r with contour := r.contour.map fun c => { c with viewport := view } }

/-- What there is to draw of a row of which all that is kept may be drawn. -/
def shape (view : Viewport Float) (r : Row) : Shape :=
  match r.contour with
  | some c => .contour c.quality c.segments
  | none =>
    .polyline (if r.equation.isExplicit then
      Scene.strokes view none (Scene.columnPoints view r.valueAt) else [])

/-- The row as a curve of a snapshot, unless it is a point. -/
def curveView? (view : Viewport Float) (id : Nat) (r : Row) : Option CurveView :=
  if r.equation.point?.isSome then none
  else some
    { id := id
      text := r.equation.raw
      color := r.color
      classification := r.equation.classification
      error? := r.equation.error?.map CompileError.message
      parameters := r.equation.parameters
      shape := r.shape view }

/-- The row as a point of a snapshot, if it is one. -/
def pointView? (id : Nat) (r : Row) : Option (Nat × Landmark) :=
  r.equation.point?.map fun (x, y) => (id, ⟨x, y, r.color⟩)

/-- Under which view a contour was traced is not drawn. -/
theorem shape_under (view : Viewport Float) (r : Row) : (r.under view).shape view = r.shape view := by
  unfold shape under
  cases r.contour <;> rfl

end Row

namespace Scene

variable {s : Scene} {id : Nat} {r : Row}

/-- A contour is kept of each implicit curve that may be drawn. -/
def AllShown (s : Scene) : Prop :=
  ∀ i r, s.rows.get? i = some r → r.equation.isImplicit = true →
    ∃ c, r.contour = some c ∧ s.shows c = true

/-- **Nothing has to be traced for a snapshot** where all is there. -/
theorem prepared_eq_self (h : s.AllShown) : s.prepared = s := by
  rw [prepared_eq_readyAt]
  refine (readyAt_congr fun id r hr => ?_).trans (readyAt_nil s)
  rw [if_pos (Keyed.mem_keys.mpr ⟨r, hr⟩), if_neg List.not_mem_nil]
  cases himplicit : r.equation.isImplicit with
  | true =>
    obtain ⟨c, hc, hshows⟩ := h id r hr himplicit
    exact readied_of_kept (Option.filter_eq_some_iff.mpr ⟨hc, hshows⟩)
  | false => exact readied_of_not_implicit himplicit

theorem shape_eq (h : s.AllShown) (hr : s.rows.get? id = some r) (hcurrent : r.Current s.settings) :
    s.shape id = r.shape s.viewport := by
  rw [shape_eq_shapeOf hr]
  unfold shapeOf Row.shape
  cases himplicit : r.equation.isImplicit with
  | true =>
    obtain ⟨c, hc, hshows⟩ := h id r hr himplicit
    have hdrawn : s.drawn r = c := by
      rw [drawn, Option.filter_eq_some_iff.mpr ⟨hc, hshows⟩, Option.getD_some]
    rw [hdrawn, hc]
    rfl
  | false =>
    have hnone : r.contour = none := Option.eq_none_iff_forall_ne_some.mpr fun c hc =>
      Bool.false_ne_true (himplicit.symm.trans (hcurrent.contour_implicit c hc))
    rw [hnone]
    unfold polyline
    rw [hr, Option.filter_some]
    cases r.equation.isExplicit with
    | true => rfl
    | false => rfl

end Scene

namespace Command.Arguments

open Scene

variable {a : Arguments} {settings : Settings Float} {sheet : String} {actions : List Action}

/-- The rows of the lines, with their numbers. -/
def rows (a : Arguments) (settings : Settings Float) (sheet : String) : List (Nat × Row) :=
  (Sheet.read sheet).zipIdx.map fun (text, i) => (i, a.row settings text (Palette.mk i).upcoming)

/-- The rows on which landmarks are sought. -/
def graphs (a : Arguments) (settings : Settings Float) (sheet : String) : List Row :=
  ((a.rows settings sheet).map (·.2)).filter Row.isCurve

/-- How near to each other landmarks are sought. -/
def step (a : Arguments) (settings : Settings Float) : Float :=
  settings.rootStep / (a.view settings).scale

/-- **The snapshot that a run ends with.** -/
def final (a : Arguments) (settings : Settings Float) (sheet : String) : Snapshot where
  viewport := a.view settings
  grid := Viewport.gridSteps (a.view settings).scale
  curves := (a.rows settings sheet).filterMap fun e => e.2.curveView? (a.view settings) e.1
  points := (a.rows settings sheet).filterMap fun e => e.2.pointView? e.1
  intercepts := (a.graphs settings sheet).flatMap
    (interceptsOf (a.view settings).rangeX.1 (a.view settings).rangeX.2 (a.step settings))
  intersections := (pairs (a.graphs settings sheet)).flatMap fun p =>
    Landmark.intersections (a.view settings).rangeX.1 (a.view settings).rangeX.2 (a.step settings)
      p.1.valueAt p.2.valueAt
  pins := []

section

variable (a : Arguments) (settings : Settings Float) (sheet : String)

theorem curves_final : (a.final settings sheet).curves =
    (a.rows settings sheet).filterMap fun e => e.2.curveView? (a.view settings) e.1 := rfl

theorem points_final : (a.final settings sheet).points =
    (a.rows settings sheet).filterMap fun e => e.2.pointView? e.1 := rfl

theorem intercepts_final : (a.final settings sheet).intercepts =
    (a.graphs settings sheet).flatMap
      (interceptsOf (a.view settings).rangeX.1 (a.view settings).rangeX.2 (a.step settings)) := by
  rw [final]

theorem intersections_final : (a.final settings sheet).intersections =
    (pairs (a.graphs settings sheet)).flatMap fun p =>
      Landmark.intersections (a.view settings).rangeX.1 (a.view settings).rangeX.2
        (a.step settings) p.1.valueAt p.2.valueAt := by
  rw [final]

end

/-- The row of a line is the one that is planned, with the contour that the fine pass finds. -/
theorem under_eq_row {r : Row} {text : String} {color : Color} (hcurrent : r.Current settings)
    (hsketch : r.sketch = (a.row settings text color).sketch)
    (hfine : r.equation.isImplicit = true → ∃ c, r.contour = some c ∧ c.quality = .fine ∧
      Contour.fine r.equation.field (a.view settings) settings false = some c.segments) :
    r.under (a.view settings) = a.row settings text color := by
  have hequation : r.equation = (a.row settings text color).equation :=
    (Row.equation_of_sketch hsketch.symm).symm
  have hcontour : r.contour.map (fun c => { c with viewport := a.view settings }) =
      (a.row settings text color).contour := by
    cases himplicit : r.equation.isImplicit with
    | true =>
      obtain ⟨c, hc, hquality, hsegments⟩ := hfine himplicit
      have hrow : (a.row settings text color).contour =
          if (a.row settings text color).equation.isImplicit then
            some ⟨(Contour.fine (a.row settings text color).equation.field (a.view settings)
              settings false).getD [], a.view settings, .fine⟩
          else none := rfl
      rw [hrow, ← hequation, himplicit, hsegments, hc, Option.map_some, hquality]
      rfl
    | false =>
      have hnone : r.contour = none := Option.eq_none_iff_forall_ne_some.mpr fun c hc =>
        Bool.false_ne_true (himplicit.symm.trans (hcurrent.contour_implicit c hc))
      have hrow : (a.row settings text color).contour = none := by
        refine if_neg ?_
        show ¬(a.row settings text color).equation.isImplicit = true
        rw [← hequation, himplicit]
        exact Bool.false_ne_true
      rw [hnone, hrow]
      rfl
  unfold Row.under
  rw [hcontour, hequation, Row.color_of_sketch hsketch, Row.strip_of_sketch hsketch]

/-- **The rows at the end of a run** are those of the lines, and the contours may be drawn. -/
theorem Course.rows_eq (h : a.Course settings sheet actions)
    (htolerance : (0.0 : Float) ≤ settings.driftTolerance) (hview : (a.view settings).Regular)
    (hdone : ((a.start settings).run actions).jobs.runningCount = 0) :
    let s := (a.start settings).run actions
    s.AllShown ∧ s.rows.entries.map (fun e => (e.1, e.2.under (a.view settings))) =
      a.rows settings sheet := by
  intro s
  have hheld : a.Held settings sheet s := h.held
  have hcurrent : s.Current 0 0 := (current_start a settings).run actions
  obtain ⟨haimed, htended⟩ := h.aimed htolerance hview
  -- nothing waits, moves or is awaited, so each implicit curve has its fine contour
  have hfine (i : Nat) (r : Row) (hr : s.rows.get? i = some r)
      (himplicit : r.equation.isImplicit = true) :=
    haimed.exists_fine htended hcurrent hheld.isInteracting
      (JobBoard.get?_inFlight_of_runningCount hdone i)
      (fun hpending => Bool.false_ne_true ((hheld.idle i).symm.trans hpending)) hr himplicit
  refine ⟨fun i r hr himplicit => ?_, List.ext_getElem? fun i => ?_⟩
  · obtain ⟨c, hc, -, hshows, -⟩ := hfine i r hr himplicit
    exact ⟨c, hc, hshows⟩
  -- place by place, a row of the scene is the row of the line there
  have hrow := hheld.row i
  rw [List.getElem?_map, Keyed.getElem?_entries hheld.keys, rows, List.getElem?_map,
    List.getElem?_zipIdx, Nat.zero_add]
  cases hr : s.rows.get? i with
  | none =>
    rw [hr, Option.map_none, eq_comm, Option.map_eq_none_iff] at hrow
    rw [hrow]
    rfl
  | some r =>
    rw [hr, Option.map_some, eq_comm, Option.map_eq_some_iff] at hrow
    obtain ⟨text, htext, hsketch⟩ := hrow
    rw [htext]
    refine congrArg (fun r => some (i, r)) (under_eq_row ?_ hsketch.symm fun himplicit => ?_)
    · rw [← hheld.setup]
      exact hcurrent.row i r hr
    · obtain ⟨c, hc, hquality, -, hsegments⟩ := hfine i r hr himplicit
      rw [hheld.viewport, hheld.setup] at hsegments
      exact ⟨c, hc, hquality, hsegments⟩

/-- **However a run goes, it ends with the same snapshot,** if no pass is awaited any more. -/
theorem Course.snapshot_eq (h : a.Course settings sheet actions)
    (htolerance : (0.0 : Float) ≤ settings.driftTolerance) (hview : (a.view settings).Regular)
    (hdone : ((a.start settings).run actions).jobs.runningCount = 0) :
    ((a.start settings).run actions).snapshot.2 = a.final settings sheet := by
  have hheld := h.held
  have hcurrent := (current_start a settings).run actions
  have hsettled : ((a.start settings).run actions).Settled :=
    run_induction Settled.act (.start settings a.width.value a.height.value) actions
  obtain ⟨hshown, hrows⟩ := h.rows_eq htolerance hview hdone
  -- how the scene came about does not matter from here on
  generalize (a.start settings).run actions = s at hheld hcurrent hsettled hshown hrows
  have hderived : s.Derived := hsettled.derived hheld.isInteracting fun i hpending =>
    Bool.false_ne_true ((hheld.idle i).symm.trans hpending)
  have hgraphs : a.graphs settings sheet =
      (s.rows.values.filter Row.isCurve).map (Row.under (a.view settings)) := by
    rw [graphs, ← hrows, List.map_map, Keyed.values, List.filter_map, List.filter_map, List.map_map]
    rfl
  have hstep : a.step settings = s.settings.rootStep / s.viewport.scale := by
    rw [hheld.viewport, hheld.setup, step]
  have hcurves : s.rows.entries.filterMap (fun e => s.curveView? e.1 e.2) =
      (a.final settings sheet).curves := by
    rw [curves_final, ← hrows, List.filterMap_map]
    refine List.filterMap_congr fun e he => ?_
    have hr := Keyed.get?_eq_some_iff.mpr he
    rw [Scene.curveView?, shape_eq hshown hr (hcurrent.row e.1 e.2 hr), hheld.viewport,
      ← Row.shape_under]
    rfl
  have hpoints : s.points = (a.final settings sheet).points := by
    rw [points_final, ← hrows, List.filterMap_map]
    rfl
  have hintercepts : s.intercepts = (a.final settings sheet).intercepts := by
    rw [hderived.1, intercepts_final, hgraphs, List.flatMap_map, hstep, ← hheld.viewport]
    rfl
  have hintersections : s.intersections = (a.final settings sheet).intersections := by
    rw [hderived.2, intersections_final, hgraphs, pairs_map, List.flatMap_map, hstep,
      ← hheld.viewport]
    rfl
  calc s.snapshot.2 = s.frame := congrArg frame (prepared_eq_self hshown)
    _ = a.final settings sheet := by
      unfold frame
      rw [hcurves, hpoints, hintercepts, hintersections, hheld.pins, hheld.viewport, final]

/-! ### What the snapshot holds -/

theorem map_id_curves (view : Viewport Float) (es : List (Nat × Row)) :
    (es.filterMap fun e => e.2.curveView? view e.1).map (·.id) =
      (es.filter fun e => !e.2.equation.point?.isSome).map (·.1) := by
  induction es with
  | nil => rfl
  | cons e es ih =>
    rw [List.filterMap_cons, List.filter_cons]
    cases hpoint : e.2.equation.point?.isSome with
    | true =>
      rw [show e.2.curveView? view e.1 = none from if_pos hpoint]
      exact ih
    | false =>
      rw [show e.2.curveView? view e.1 = some _ from if_neg (Bool.eq_false_iff.mp hpoint)]
      exact congrArg (e.1 :: ·) ih

theorem map_fst_points (es : List (Nat × Row)) :
    (es.filterMap fun e => e.2.pointView? e.1).map (·.1) =
      (es.filter fun e => e.2.equation.point?.isSome).map (·.1) := by
  induction es with
  | nil => rfl
  | cons e es ih =>
    rw [List.filterMap_cons, List.filter_cons, Row.pointView?]
    cases e.2.equation.point? with
    | none => exact ih
    | some q => exact congrArg (e.1 :: ·) ih

theorem map_fst_rows (a : Arguments) (settings : Settings Float) (sheet : String) :
    (a.rows settings sheet).map (·.1) = List.range (Sheet.read sheet).length := by
  rw [rows, List.map_map, List.range_eq_range']
  exact List.zipIdx_map_snd 0 _

/-- **There is one entry for each line,** a curve or a point, in the order of the lines. -/
theorem ids_final (a : Arguments) (settings : Settings Float) (sheet : String) :
    let shown := a.final settings sheet
    (shown.curves.map (·.id) ++ shown.points.map (·.1)).Perm
        (List.range (Sheet.read sheet).length) ∧
      (shown.curves.map (·.id)).Pairwise (· < ·) ∧ (shown.points.map (·.1)).Pairwise (· < ·) := by
  intro shown
  have hcurves := map_id_curves (a.view settings) (a.rows settings sheet)
  have hpoints := map_fst_points (a.rows settings sheet)
  rw [← curves_final] at hcurves
  rw [← points_final] at hpoints
  have hascending (keep : Nat × Row → Bool) :
      (((a.rows settings sheet).filter keep).map (·.1)).Pairwise (· < ·) := by
    refine List.Pairwise.sublist (List.Sublist.map Prod.fst List.filter_sublist) ?_
    rw [map_fst_rows]
    exact List.pairwise_lt_range
  rw [hcurves, hpoints]
  refine ⟨?_, hascending _, hascending _⟩
  rw [← map_fst_rows a settings sheet, ← List.map_append]
  exact (List.perm_append_comm.trans (List.filter_append_perm _ _)).map _

/-- The equation of a line at the end of a run. -/
def equation (a : Arguments) (settings : Settings Float) (text : String) : Equation :=
  tuned a.sliders (Equation.compile text settings.linearProbe)

/-- **A curve is drawn as a line asks for,** at the last values of its sliders. -/
structure Draws (a : Arguments) (settings : Settings Float) (text : String) (c : CurveView) :
    Prop where
  text_eq : c.text = text
  color_eq : c.color = (Palette.mk c.id).upcoming
  classification_eq : c.classification = (a.equation settings text).classification
  names_eq : c.parameters.keys = (Equation.compile text settings.linearProbe).parameters.keys
  parameter_eq : ∀ name p, c.parameters.get? name = some p →
    p = { Parameter.standard with value := (lastValue? a.sliders name).getD 1.0 }
  /-- Of an implicit curve there is what the fine pass finds. -/
  contour_fine : (a.equation settings text).isImplicit = true → ∃ segments,
    Contour.fine (a.equation settings text).field (a.view settings) settings false = some segments ∧
      c.shape = .contour .fine segments
  /-- Of a graph there are the strokes of its row. -/
  polyline_eq : (a.equation settings text).isExplicit = true → c.shape = .polyline
    (strokes (a.view settings) none
      (columnPoints (a.view settings) (a.row settings text c.color).valueAt))

theorem mem_rows {e : Nat × Row} (h : e ∈ a.rows settings sheet) : ∃ text,
    (Sheet.read sheet)[e.1]? = some text ∧ e.2 = a.row settings text (Palette.mk e.1).upcoming := by
  obtain ⟨⟨text, i⟩, hmem, rfl⟩ := List.mem_map.mp h
  exact ⟨text, List.mem_zipIdx_iff_getElem?.mp hmem, rfl⟩

theorem exists_fine (field : Float → Float → Float) (view : Viewport Float)
    (settings : Settings Float) : ∃ segments, Contour.fine field view settings false = some segments := by
  unfold Contour.fine
  dsimp only
  split
  · exact ⟨_, rfl⟩
  · exact ⟨_, rfl⟩

/-- **The row of a line keeps what belongs to it:** samples that lie on the graph of the tuned
equation, in a strip that a refresh would keep, or what the fine pass finds. -/
theorem current_row (a : Arguments) (settings : Settings Float) (text : String) (color : Color) :
    (a.row settings text color).Current settings ∧
      (a.row settings text color).Steady settings (a.view settings) := by
  let compiled := Equation.compile text settings.linearProbe
  let old : Option (Strip Float) := if moves a.sliders compiled then none
    else some (refreshedStrip settings (a.start settings).viewport compiled none)
  have hstrip : (a.row settings text color).strip =
      if (a.equation settings text).isExplicit then
        some (refreshedStrip settings (a.view settings) (a.equation settings text) old)
      else none := rfl
  have hcontour : (a.row settings text color).contour =
      if (a.equation settings text).isImplicit then
        some ⟨(Contour.fine (a.equation settings text).field (a.view settings) settings
          false).getD [], a.view settings, .fine⟩
      else none := rfl
  have hold : ∀ strip, old = some strip → strip.Accurate (a.equation settings text).curve := by
    intro strip hs
    cases hmoves : moves a.sliders compiled with
    | true => simp [old, hmoves] at hs
    | false =>
      -- no slider was moved, so the first strip is one of the equation as it ends up
      have hsame : a.equation settings text = compiled := tuned_of_not_moves hmoves
      simp only [old, hmoves, Bool.false_eq_true, if_false, Option.some.injEq] at hs
      rw [← hs, hsame]
      exact accurate_refreshedStrip _ _ _ fun _ h => by cases h
  refine ⟨⟨fun strip hs => ?_, fun strip hs => ?_, fun c hc => ?_, fun c hc => ?_⟩, ?_⟩
  · rw [hstrip] at hs
    split at hs
    · next hexplicit => exact hexplicit
    · cases hs
  · rw [hstrip] at hs
    split at hs
    · rw [← Option.some.inj hs]
      exact accurate_refreshedStrip _ _ _ hold
    · cases hs
  · rw [hcontour] at hc
    split at hc
    · next himplicit => exact himplicit
    · cases hc
  · rw [hcontour] at hc
    split at hc
    · obtain ⟨segments, hfine⟩ :=
        exists_fine (a.equation settings text).field (a.view settings) settings
      rw [hfine] at hc
      rw [← Option.some.inj hc]
      exact hfine
    · cases hc
  · intro hexplicit
    have hexplicit : (a.equation settings text).isExplicit = true := hexplicit
    rw [hstrip, if_pos hexplicit]
    exact congrArg some (refreshedStrip_refreshedStrip settings (a.view settings)
      (a.equation settings text) old).symm

/-- **The sliders of a line** are those of its text, where the last values put them. -/
theorem get?_equation {name : Char} {p : Parameter} {text : String}
    (h : (a.equation settings text).parameters.get? name = some p) :
    p = { Parameter.standard with value := (lastValue? a.sliders name).getD 1.0 } := by
  rw [equation, get?_tuned] at h
  obtain ⟨q, hq, rfl⟩ := Option.map_eq_some_iff.mp h
  rw [Equation.get?_compile hq]
  rfl

/-- **Every curve is drawn as a line asks for.** -/
theorem draws_final {c : CurveView} (h : c ∈ (a.final settings sheet).curves) :
    ∃ text, (Sheet.read sheet)[c.id]? = some text ∧ a.Draws settings text c := by
  obtain ⟨e, he, hc⟩ := List.mem_filterMap.mp h
  obtain ⟨text, htext, hrow⟩ := mem_rows he
  unfold Row.curveView? at hc
  split at hc
  · cases hc
  obtain rfl := Option.some.inj hc
  refine ⟨text, htext, ?_⟩
  rw [hrow]
  refine
    { text_eq := Equation.raw_compile text settings.linearProbe
      color_eq := rfl
      classification_eq := rfl
      names_eq := keys_tuned
      parameter_eq := fun name p hp => get?_equation hp
      contour_fine := fun himplicit => ?_
      polyline_eq := fun hexplicit => ?_ }
  · obtain ⟨segments, hfine⟩ :=
      exists_fine (a.equation settings text).field (a.view settings) settings
    have hcontour : (a.row settings text (Palette.mk e.1).upcoming).contour =
        some ⟨segments, a.view settings, .fine⟩ := by
      refine (if_pos himplicit).trans ?_
      rw [show tuned a.sliders _ = a.equation settings text from rfl, hfine]
      rfl
    refine ⟨segments, hfine, ?_⟩
    show Row.shape (a.view settings) (a.row settings text (Palette.mk e.1).upcoming) = _
    rw [Row.shape, hcontour]
  · have hcontour : (a.row settings text (Palette.mk e.1).upcoming).contour = none := by
      refine if_neg fun himplicit => Bool.false_ne_true ?_
      exact (Equation.isImplicit_of_isExplicit hexplicit).symm.trans himplicit
    show Row.shape (a.view settings) (a.row settings text (Palette.mk e.1).upcoming) = _
    rw [Row.shape, hcontour]
    exact congrArg Shape.polyline (if_pos hexplicit)

/-- **Every point is where a line says.** -/
theorem mem_points_final {p : Nat × Landmark} (h : p ∈ (a.final settings sheet).points) :
    ∃ text, (Sheet.read sheet)[p.1]? = some text ∧
      (a.equation settings text).point? = some (p.2.x, p.2.y) ∧
      p.2.color = (Palette.mk p.1).upcoming := by
  obtain ⟨e, he, hp⟩ := List.mem_filterMap.mp h
  obtain ⟨text, htext, hrow⟩ := mem_rows he
  obtain ⟨⟨x, y⟩, hpoint, rfl⟩ := Option.map_eq_some_iff.mp hp
  rw [hrow] at hpoint
  exact ⟨text, htext, hpoint, by rw [hrow]; rfl⟩

/-- **A run ends on what its arguments ask for.** Let the tolerance not be negative and the view
that is asked for be regular. Then the snapshot of a run is the final one, and however a run goes
in which fine passes end at other times, its snapshot is the same if none is awaited in the end.
It has one entry for each line that is not blank, a curve or a point, each in the order of the
lines. Every curve is drawn as its line asks for: its sliders are at the last values that were
given for them, and if it is implicit, what is drawn is what the fine pass finds at these values
under this view. What else is drawn comes from the rows of the lines, and these keep nothing but
samples of their equations at these values, in strips that a refresh under this view would keep;
so do the landmarks, which are sought in this view. -/
theorem run_final (a : Arguments) (settings : Settings Float) (sheet : String)
    (htolerance : (0.0 : Float) ≤ settings.driftTolerance) (hview : (a.view settings).Regular) :
    let lines := Sheet.read sheet
    let view := a.view settings
    let graphs := a.graphs settings sheet
    let shown := a.snapshot settings sheet
    (∀ actions, a.Course settings sheet actions →
      ((a.start settings).run actions).jobs.runningCount = 0 →
      ((a.start settings).run actions).snapshot.2 = shown) ∧
    shown = a.final settings sheet ∧ shown.viewport = view ∧
    (shown.curves.map (·.id) ++ shown.points.map (·.1)).Perm (List.range lines.length) ∧
    (shown.curves.map (·.id)).Pairwise (· < ·) ∧ (shown.points.map (·.1)).Pairwise (· < ·) ∧
    (∀ c ∈ shown.curves, ∃ text, lines[c.id]? = some text ∧ a.Draws settings text c) ∧
    (∀ p ∈ shown.points, ∃ text, lines[p.1]? = some text ∧
      (a.equation settings text).point? = some (p.2.x, p.2.y) ∧
      p.2.color = (Palette.mk p.1).upcoming) ∧
    shown.intercepts =
      graphs.flatMap (interceptsOf view.rangeX.1 view.rangeX.2 (a.step settings)) ∧
    shown.intersections = (pairs graphs).flatMap (fun p =>
      Landmark.intersections view.rangeX.1 view.rangeX.2 (a.step settings)
        p.1.valueAt p.2.valueAt) ∧
    ∀ e ∈ a.rows settings sheet, ∃ text, lines[e.1]? = some text ∧
      e.2.equation = a.equation settings text ∧ e.2.Current settings ∧ e.2.Steady settings view := by
  intro lines view graphs shown
  have hfinal : shown = a.final settings sheet := by
    obtain ⟨actions, hcourse, hdone, hsnapshot⟩ := exists_course a settings sheet
    exact hsnapshot.trans (hcourse.snapshot_eq htolerance hview hdone)
  obtain ⟨hids, hcurves, hpoints⟩ := ids_final a settings sheet
  refine ⟨fun actions hcourse hdone =>
    (hcourse.snapshot_eq htolerance hview hdone).trans hfinal.symm, hfinal, ?_⟩
  rw [hfinal]
  refine ⟨rfl, hids, hcurves, hpoints, fun c hc => draws_final hc, fun p hp => mem_points_final hp,
    intercepts_final a settings sheet, intersections_final a settings sheet, fun e he => ?_⟩
  obtain ⟨text, htext, hrow⟩ := mem_rows he
  obtain ⟨hcurrent, hsteady⟩ := current_row a settings text (Palette.mk e.1).upcoming
  rw [hrow]
  exact ⟨text, htext, rfl, hcurrent, hsteady⟩

/-- A parabola is shown off the origin, with its slider set twice: whatever there is to draw of
it, its slider is at the second value. -/
theorem run_final_parabola :
    let a : Arguments :=
      { file := "plot", output := none, config := none
        width := ⟨800.0, false⟩, height := ⟨600.0, false⟩
        centerX := ⟨1.0, false⟩, centerY := ⟨0.0, false⟩, scale := none
        sliders := [⟨'a', 5.0, false⟩, ⟨'a', 2.0, false⟩], logFolder := none }
    let settings : Settings Float := .standard
    let shown := a.snapshot settings "y*y=a*x"
    (0.0 : Float) ≤ settings.driftTolerance ∧ (a.view settings).Regular ∧
      (shown.curves.map (·.id) ++ shown.points.map (·.1)).Perm [0] ∧
      ∀ c ∈ shown.curves, ∀ p, c.parameters.get? 'a' = some p → p.value = 2.0 := by
  intro a settings shown
  have htolerance : (0.0 : Float) ≤ settings.driftTolerance := by decide +kernel
  have hview : (a.view settings).Regular := by decide +kernel
  have hlines : (Sheet.read "y*y=a*x").length = 1 := by decide +kernel
  obtain ⟨-, -, -, hids, -, -, hdraws, -⟩ := run_final a settings "y*y=a*x" htolerance hview
  rw [hlines] at hids
  refine ⟨htolerance, hview, hids, fun c hc p hp => ?_⟩
  obtain ⟨text, -, hdrawn⟩ := hdraws c hc
  rw [hdrawn.parameter_eq 'a' p hp]
  rfl

end Command.Arguments

end CurvePlot
