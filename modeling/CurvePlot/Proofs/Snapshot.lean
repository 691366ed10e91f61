import CurvePlot.Proofs.Scene.Operations
import CurvePlot.Snapshot
/-!
# A snapshot is complete and can be repeated

A snapshot asks for the contour of one equation after the other, and to ask may change the scene.
Yet what is drawn of an equation (`Scene.drawn`) and what is kept of it (`Scene.readied`) is a
matter of the view and of its own row. So asking for all of them changes all rows at once
(`prepared_eq`), and what is shown can be read off the scene as it was before
(`mem_curves_snapshot`). From this follows what a snapshot lists, and that a second one is the same
(`snapshot_complete`); and it makes no difference if each curve is taken down right after its contour
was asked for (`captured_eq_snapshot`).

To ask again changes nothing more: a preview that was traced on the spot is found to serve, or it
is traced once more, and comes out the same (`readied_readied`). The latter happens under views
that are not finite, for which no contour serves.
-/

namespace CurvePlot

/-- A point is no implicit curve. -/
theorem Equation.point?_of_isImplicit {eq : Equation} (h : eq.isImplicit = true) :
    eq.point? = none := by
  unfold isImplicit at h
  unfold point?
  cases hclass : eq.classification with
  | point x y =>
    rw [hclass] at h
    cases h
  | explicit | linearInY | implicit => rfl

namespace Scene

variable {s : Scene} {id : Nat} {r : Row}

/-! ### One equation -/

/-- The contour to draw for an implicit curve: what is kept of it, if that may be drawn. -/
def drawn (s : Scene) (r : Row) : Contour Float :=
  (r.contour.filter s.shows).getD (previewOf s.settings s.viewport r.equation)

/-- The row with a preview, if it is one of an implicit curve of which nothing is kept that may be
drawn. -/
def readied (s : Scene) (r : Row) : Row :=
  if r.equation.isImplicit = true ∧ r.contour.filter s.shows = none then
    { r with contour := some (previewOf s.settings s.viewport r.equation) }
  else r

/-- Only implicit curves are made ready. -/
theorem readied_of_not_implicit (h : r.equation.isImplicit = false) : s.readied r = r :=
  if_neg fun himplicit => Bool.false_ne_true (h.symm.trans himplicit.1)

/-- What may be drawn stays. -/
theorem readied_of_kept {c : Contour Float} (h : r.contour.filter s.shows = some c) :
    s.readied r = r := by
  refine if_neg ?_
  rintro ⟨-, hnone⟩
  rw [h] at hnone
  cases hnone

/-- What is drawn of an implicit curve is kept. -/
theorem readied_of_implicit (h : r.equation.isImplicit = true) :
    s.readied r = { r with contour := some (s.drawn r) } := by
  unfold drawn
  cases hkept : r.contour.filter s.shows with
  | none => exact if_pos ⟨h, hkept⟩
  | some c =>
    obtain ⟨hcontour, -⟩ := Option.filter_eq_some_iff.mp hkept
    rw [readied_of_kept hkept, Option.getD_some, ← hcontour]

/-- Nothing but the contour is made ready. -/
theorem equation_ite_readied (p : Prop) [Decidable p] :
    (if p then s.readied r else r).equation = r.equation := by
  unfold readied
  split_ifs
  · rfl
  · rfl
  · rfl

/-- The color of a row does not depend on whether it was made ready. -/
theorem color_ite_readied (p : Prop) [Decidable p] :
    (if p then s.readied r else r).color = r.color := by
  unfold readied
  split_ifs
  · rfl
  · rfl
  · rfl

/-- **What was made ready is drawn as it is,** whether or not a preview serves that was traced on
the spot. -/
theorem drawn_readied (s : Scene) (r : Row) : s.drawn (s.readied r) = s.drawn r := by
  cases himplicit : r.equation.isImplicit with
  | false => rw [readied_of_not_implicit himplicit]
  | true =>
    rw [readied_of_implicit himplicit]
    unfold drawn
    cases hkept : r.contour.filter s.shows with
    | none =>
      -- the preview is drawn, whether it is kept or traced once more
      rw [Option.getD_none, Option.filter_some]
      split
      · rfl
      · rfl
    | some c =>
      rw [Option.getD_some, Option.filter_some, if_pos (Option.filter_eq_some_iff.mp hkept).2]
      rfl

/-- **To be made ready again is nothing new.** -/
theorem readied_readied (s : Scene) (r : Row) : s.readied (s.readied r) = s.readied r := by
  cases himplicit : r.equation.isImplicit with
  | false => rw [readied_of_not_implicit himplicit, readied_of_not_implicit himplicit]
  | true =>
    have hagain : (s.readied r).equation.isImplicit = true := by
      rw [readied_of_implicit himplicit]
      exact himplicit
    rw [readied_of_implicit hagain, drawn_readied, readied_of_implicit himplicit]

/-- **To ask for the contour of an equation** makes its row ready. -/
theorem contour_fst (s : Scene) (id : Nat) : (s.contour id).1 = s.updateRow id s.readied := by
  unfold contour
  cases hr : (s.rows.get? id).filter fun r => r.equation.isImplicit with
  -- the equation is not there or is no implicit curve
  | none =>
    refine (updateRow_eq_self fun r hrow => ?_).symm
    rw [hrow, Option.filter_eq_none_iff] at hr
    exact readied_of_not_implicit (Bool.eq_false_iff.mpr (hr r rfl))
  | some r =>
    obtain ⟨hrow, himplicit⟩ := Option.filter_eq_some_iff.mp hr
    dsimp only
    cases hkept : r.contour.filter s.shows with
    | none =>
      dsimp only [updateRow]
      -- the row that is written is the one that was looked up
      rw [Keyed.modify_congr hrow]
      rw [readied, if_pos ⟨himplicit, hkept⟩]
    | some c =>
      refine (updateRow_eq_self fun r' hrow' => ?_).symm
      obtain rfl := Option.some.inj (hrow.symm.trans hrow')
      exact readied_of_kept hkept

/-- What the answer is. -/
theorem contour_snd (s : Scene) (id : Nat) :
    (s.contour id).2 = ((s.rows.get? id).filter fun r => r.equation.isImplicit).map s.drawn := by
  unfold contour
  cases (s.rows.get? id).filter fun r => r.equation.isImplicit with
  | none => rfl
  | some r =>
    rw [Option.map_some, drawn]
    dsimp only
    cases r.contour.filter s.shows with
    | none => rfl
    | some c => rfl

/-! ### Several equations -/

/-- The scene with the rows of some equations made ready. -/
def readyAt (s : Scene) (ids : List Nat) : Scene :=
  { s with rows := s.rows.mapValues fun id r => if id ∈ ids then s.readied r else r }

/-- The rows of the equations in question are made ready, and the others stay. -/
theorem get?_readyAt (s : Scene) (ids : List Nat) (id : Nat) :
    (s.readyAt ids).rows.get? id =
      (s.rows.get? id).map fun r => if id ∈ ids then s.readied r else r :=
  Keyed.get?_mapValues _ s.rows id

/-- It is a matter of what becomes of each row. -/
theorem readyAt_eq_of_rows {rows : Keyed Nat Row} {ids : List Nat}
    (h : ∀ id, rows.get? id = (s.rows.get? id).map fun r => if id ∈ ids then s.readied r else r) :
    { s with rows := rows } = s.readyAt ids := by
  have hrows : rows = (s.readyAt ids).rows := by
    refine Keyed.ext_get? fun id => ?_
    rw [h, get?_readyAt]
  rw [hrows]
  rfl

/-- Nothing is made ready for no equation. -/
theorem readyAt_nil (s : Scene) : s.readyAt [] = s :=
  (readyAt_eq_of_rows fun _ => Option.map_id'.symm).symm

/-- To write a row that is ready is to make that one ready. -/
theorem updateRow_readied (s : Scene) (id : Nat) : s.updateRow id s.readied = s.readyAt [id] := by
  refine readyAt_eq_of_rows fun j => ?_
  by_cases hj : j = id
  · simp only [hj, Keyed.get?_modify_self, List.mem_singleton, if_true]
  · rw [Keyed.get?_modify_of_ne _ _ hj]
    simp only [List.mem_singleton, hj, if_false]
    exact Option.map_id'.symm

/-- **Some rows after others,** and none of them changes twice. -/
theorem readyAt_readyAt (s : Scene) (ids ids' : List Nat) :
    (s.readyAt ids).readyAt ids' = s.readyAt (ids ++ ids') := by
  show { s with rows := ((s.readyAt ids).readyAt ids').rows } = _
  refine readyAt_eq_of_rows fun id => ?_
  -- the view is the same, so the rows are made ready alike
  rw [get?_readyAt, get?_readyAt, Option.map_map]
  refine Option.map_congr fun r _ => ?_
  show (if id ∈ ids' then s.readied (if id ∈ ids then s.readied r else r)
    else if id ∈ ids then s.readied r else r) = _
  by_cases hid : id ∈ ids
  · -- what was made ready is made ready once more
    rw [if_pos hid, readied_readied, ite_self, if_pos (List.mem_append_left ids' hid)]
  · simp only [hid, List.mem_append, false_or, if_false]

/-- Rows that are ready already need not be named. -/
theorem readyAt_congr {ids ids' : List Nat} (h : ∀ id r, s.rows.get? id = some r →
      (if id ∈ ids then s.readied r else r) = if id ∈ ids' then s.readied r else r) :
    s.readyAt ids = s.readyAt ids' := by
  refine readyAt_eq_of_rows fun id => ?_
  show (s.readyAt ids).rows.get? id = _
  rw [get?_readyAt]
  exact Option.map_congr (h id)

/-- **Asking for contours one by one** makes these rows ready. -/
theorem foldl_contour (s : Scene) (ids : List Nat) :
    ids.foldl (fun s id => (s.contour id).1) s = s.readyAt ids := by
  -- the scenes in between have the same view, so the rows after the first are made ready as they
  -- would be at first
  induction ids generalizing s with
  | nil => exact (readyAt_nil s).symm
  | cons id ids ih =>
    rw [List.foldl_cons, ih, contour_fst, updateRow_readied, readyAt_readyAt]
    rfl

/-- A snapshot prepares all equations. -/
theorem prepared_eq_readyAt (s : Scene) : s.prepared = s.readyAt s.rows.keys :=
  foldl_contour s s.rows.keys

/-- **A snapshot makes all rows ready,** and changes nothing else. -/
theorem prepared_eq (s : Scene) :
    s.prepared = { s with rows := s.rows.mapValues fun _ => s.readied } := by
  rw [prepared_eq_readyAt]
  refine (readyAt_eq_of_rows fun id => ?_).symm
  rw [Keyed.get?_mapValues]
  refine Option.map_congr fun r hr => ?_
  rw [if_pos (Keyed.mem_keys.mpr ⟨r, hr⟩)]

/-- **A second snapshot finds everything ready.** -/
theorem prepared_prepared (s : Scene) : s.prepared.prepared = s.prepared := by
  -- the rows are named twice, which is as good as once
  rw [prepared_eq_readyAt s.prepared, prepared_eq_readyAt s, readyAt_readyAt]
  refine readyAt_congr fun id r hr => ?_
  have hid : id ∈ s.rows.keys := Keyed.mem_keys.mpr ⟨r, hr⟩
  rw [if_pos hid, if_pos (List.mem_append_left _ hid)]

/-! ### What is shown -/

/-- What there is to draw of a row. -/
def shapeOf (s : Scene) (id : Nat) (r : Row) : Shape :=
  if r.equation.isImplicit then .contour (s.drawn r).quality (s.drawn r).segments
  else .polyline (s.polyline id)

/-- The answer of the scene for an equation is what there is to draw of its row. -/
theorem shape_eq_shapeOf (hr : s.rows.get? id = some r) : s.shape id = s.shapeOf id r := by
  unfold shape shapeOf
  rw [contour_snd, hr, Option.filter_some]
  cases r.equation.isImplicit with
  | true => rfl
  | false => rfl

/-- The contour does not matter to a graph. -/
theorem polyline_readyAt (ids : List Nat) (hr : s.rows.get? id = some r)
    (himplicit : r.equation.isImplicit = false) :
    (s.readyAt ids).polyline id = s.polyline id := by
  unfold polyline
  rw [get?_readyAt, hr, Option.map_some, readied_of_not_implicit himplicit, ite_self]
  rfl

/-- **What is drawn of a row can be told before it is made ready.** -/
theorem shapeOf_readyAt (ids : List Nat) (hr : s.rows.get? id = some r) :
    (s.readyAt ids).shapeOf id (if id ∈ ids then s.readied r else r) = s.shapeOf id r := by
  cases himplicit : r.equation.isImplicit with
  | true =>
    -- the view is the same, so the same is drawn
    have hdrawn : (s.readyAt ids).drawn (if id ∈ ids then s.readied r else r) = s.drawn r := by
      show s.drawn _ = s.drawn r
      split
      · exact drawn_readied s r
      · rfl
    unfold shapeOf
    rw [hdrawn, equation_ite_readied, if_pos himplicit, if_pos himplicit]
  | false =>
    unfold shapeOf
    rw [readied_of_not_implicit himplicit, ite_self, polyline_readyAt ids hr himplicit, himplicit]
    rfl

/-- The equation as a curve of a snapshot. -/
def curveOf (s : Scene) (id : Nat) (r : Row) : CurveView where
  id := id
  text := r.equation.raw
  color := r.color
  classification := r.equation.classification
  error? := r.equation.error?.map CompileError.message
  parameters := r.equation.parameters
  shape := s.shapeOf id r

/-- An equation is the same curve of a snapshot when its row was made ready. -/
theorem curveOf_readyAt (ids : List Nat) (hr : s.rows.get? id = some r) :
    (s.readyAt ids).curveOf id (if id ∈ ids then s.readied r else r) = s.curveOf id r := by
  unfold curveOf
  rw [shapeOf_readyAt ids hr, equation_ite_readied, color_ite_readied]

/-- The curve of an equation can be told before any row is made ready. -/
theorem map_curveOf_readyAt (s : Scene) (ids : List Nat) (id : Nat) :
    ((s.readyAt ids).rows.get? id).map ((s.readyAt ids).curveOf id) =
      (s.rows.get? id).map (s.curveOf id) := by
  rw [get?_readyAt, Option.map_map]
  exact Option.map_congr fun r hr => curveOf_readyAt ids hr

/-- Points are no curves, and all other equations are. -/
theorem curveView?_eq (hr : s.rows.get? id = some r) :
    s.curveView? id r = if r.equation.point?.isSome then none else some (s.curveOf id r) := by
  unfold curveView? curveOf
  rw [shape_eq_shapeOf hr]

/-- **The curves of a scene that was made ready** are told from the rows as they were. -/
theorem curves_readyAt (s : Scene) (ids : List Nat) : (s.readyAt ids).frame.curves =
    s.rows.entries.filterMap fun e =>
      if e.2.equation.point?.isSome then none else some (s.curveOf e.1 e.2) := by
  show (s.rows.entries.map fun e => (e.1, if e.1 ∈ ids then s.readied e.2 else e.2)).filterMap
    (fun e => (s.readyAt ids).curveView? e.1 e.2) = _
  -- rows keep their places when they are made ready
  rw [List.filterMap_map]
  refine List.filterMap_congr fun e he => ?_
  have hr := Keyed.get?_eq_some_iff.mpr he
  have hready : (s.readyAt ids).rows.get? e.1 =
      some (if e.1 ∈ ids then s.readied e.2 else e.2) := by
    rw [get?_readyAt, hr, Option.map_some]
  rw [Function.comp_apply, curveView?_eq hready, curveOf_readyAt ids hr, equation_ite_readied]

/-- **The points of a scene that was made ready** are those that it had. -/
theorem points_readyAt (s : Scene) (ids : List Nat) : (s.readyAt ids).points = s.points := by
  show (s.rows.entries.map fun e => (e.1, if e.1 ∈ ids then s.readied e.2 else e.2)).filterMap
    (fun e => e.2.equation.point?.map fun p => (e.1, Landmark.mk p.1 p.2 e.2.color)) = _
  rw [List.filterMap_map]
  refine List.filterMap_congr fun e _ => ?_
  rw [Function.comp_apply, equation_ite_readied, color_ite_readied]

/-- **The curves of a snapshot,** said of the scene as it was before. -/
theorem mem_curves_snapshot {v : CurveView} : v ∈ s.snapshot.2.curves ↔
    ∃ r, s.rows.get? v.id = some r ∧ r.equation.point? = none ∧ v = s.curveOf v.id r := by
  show v ∈ s.prepared.frame.curves ↔ _
  rw [prepared_eq_readyAt, curves_readyAt, List.mem_filterMap]
  constructor
  · rintro ⟨e, he, hv⟩
    split at hv
    · cases hv
    · next hpoint =>
      obtain rfl := Option.some.inj hv
      exact ⟨e.2, Keyed.get?_eq_some_iff.mpr he, Option.not_isSome_iff_eq_none.mp hpoint, rfl⟩
  · rintro ⟨r, hr, hpoint, hv⟩
    refine ⟨(v.id, r), Keyed.get?_eq_some_iff.mp hr, ?_⟩
    rw [hpoint, ← hv]
    rfl

/-- A point is listed with its place and its color. -/
theorem mem_points {p : Nat × Landmark} : p ∈ s.points ↔ ∃ r x y,
    s.rows.get? p.1 = some r ∧ r.equation.point? = some (x, y) ∧ p.2 = ⟨x, y, r.color⟩ := by
  unfold points
  rw [List.mem_filterMap]
  constructor
  · rintro ⟨e, he, hp⟩
    obtain ⟨q, hq, rfl⟩ := Option.map_eq_some_iff.mp hp
    exact ⟨e.2, q.1, q.2, Keyed.get?_eq_some_iff.mpr he, hq, rfl⟩
  · rintro ⟨r, x, y, hr, hpoint, hp⟩
    refine ⟨(p.1, r), Keyed.get?_eq_some_iff.mp hr, ?_⟩
    show r.equation.point?.map (fun q => (p.1, Landmark.mk q.1 q.2 r.color)) = some p
    rw [hpoint, Option.map_some, ← hp]

/-! ### One curve after the other -/

/-- Asks for the contour of an equation, and takes down the curve with what comes back. -/
def capture (state : Scene × List CurveView) (id : Nat) : Scene × List CurveView :=
  let (s, contour?) := state.1.contour id
  let shape : Shape :=
    match contour? with
    | some c => .contour c.quality c.segments
    | none => .polyline (s.polyline id)
  let curve := (s.rows.get? id).map fun r =>
    { id := id
      text := r.equation.raw
      color := r.color
      classification := r.equation.classification
      error? := r.equation.error?.map CompileError.message
      parameters := r.equation.parameters
      shape := shape : CurveView }
  (s, state.2 ++ curve.toList)

/-- **To take down one curve** is to make its row ready and to note it as it is told beforehand. -/
theorem capture_eq (s : Scene) (curves : List CurveView) (id : Nat) :
    capture (s, curves) id =
      (s.readyAt [id], curves ++ ((s.rows.get? id).map (s.curveOf id)).toList) := by
  have hanswer : s.contour id =
      (s.readyAt [id], ((s.rows.get? id).filter fun r => r.equation.isImplicit).map s.drawn) :=
    Prod.ext ((contour_fst s id).trans (updateRow_readied s id)) (contour_snd s id)
  unfold capture
  rw [hanswer]
  dsimp only
  rw [get?_readyAt, Option.map_map]
  cases hr : s.rows.get? id with
  | none => rfl
  | some r =>
    -- the answer is a contour for an implicit curve, and else the polyline is asked for
    have hshape : (match ((some r).filter fun r => r.equation.isImplicit).map s.drawn with
        | some c => .contour c.quality c.segments
        | none => .polyline ((s.readyAt [id]).polyline id)) = s.shapeOf id r := by
      unfold shapeOf
      rw [Option.filter_some]
      cases himplicit : r.equation.isImplicit with
      | true => rfl
      | false =>
        rw [polyline_readyAt [id] hr himplicit]
        rfl
    simp only [Option.map_some, Function.comp_apply, hshape, equation_ite_readied,
      color_ite_readied]
    rfl

/-- **Curves that are taken down one by one** are those that are told beforehand. -/
theorem foldl_capture (s : Scene) (curves : List CurveView) (ids : List Nat) :
    ids.foldl capture (s, curves) =
      (s.readyAt ids, curves ++ ids.filterMap fun id => (s.rows.get? id).map (s.curveOf id)) := by
  induction ids generalizing s curves with
  | nil => rw [List.foldl_nil, readyAt_nil, List.filterMap_nil, List.append_nil]
  | cons id ids ih =>
    rw [List.foldl_cons, capture_eq, ih, readyAt_readyAt, List.append_assoc]
    simp only [map_curveOf_readyAt, List.filterMap_cons]
    cases (s.rows.get? id).map (s.curveOf id) with
    | none => rfl
    | some v => rfl

/-- **A snapshot is taken one curve after the other.** That the scene is made ready in between does
not show in the curves. -/
theorem captured_eq_snapshot (s : Scene) :
    ((s.rows.entries.filter fun e => e.2.equation.point?.isNone).map (·.1)).foldl capture (s, []) =
      (s.snapshot.1, s.snapshot.2.curves) := by
  rw [foldl_capture]
  show _ = (s.prepared, s.prepared.frame.curves)
  rw [prepared_eq_readyAt, curves_readyAt, List.nil_append]
  refine Prod.ext ?_ ?_
  · -- the rows that were made ready are all that need it
    refine readyAt_congr fun id r hr => ?_
    rw [if_pos (Keyed.mem_keys.mpr ⟨r, hr⟩)]
    split
    · rfl
    · next hmem =>
      -- only points are not asked for
      cases himplicit : r.equation.isImplicit with
      | false => rw [readied_of_not_implicit himplicit]
      | true =>
        refine absurd (List.mem_map.mpr ⟨(id, r), List.mem_filter.mpr ⟨?_, ?_⟩, rfl⟩) hmem
        · exact Keyed.get?_eq_some_iff.mp hr
        · exact Option.isNone_iff_eq_none.mpr (Equation.point?_of_isImplicit himplicit)
  · -- the curves are listed in the same order, and points are left out of both
    show List.filterMap _ (List.map _ _) = _
    rw [List.filterMap_map, List.filterMap_filter]
    refine List.filterMap_congr fun e he => ?_
    rw [Function.comp_apply, Keyed.get?_eq_some_iff.mpr he, Option.map_some]
    cases e.2.equation.point? with
    | none => rfl
    | some p => rfl

end Scene

/-- **What a snapshot of a scene has to hold.** -/
structure Snapshot.Captures (shot : Snapshot) (s : Scene) : Prop where
  /-- The curves stand in the order of their numbers, and none stands there twice. -/
  curves_ascending : (shot.curves.map (·.id)).Pairwise (· < ·)
  /-- The points stand in the order of their numbers. -/
  points_ascending : (shot.points.map (·.1)).Pairwise (· < ·)
  /-- The curves are all equations but the points. -/
  mem_curves : ∀ id, id ∈ shot.curves.map (·.id) ↔
    ∃ r, s.rows.get? id = some r ∧ r.equation.point? = none
  /-- The points are all equations that are points. -/
  mem_points : ∀ id, id ∈ shot.points.map (·.1) ↔
    ∃ r, s.rows.get? id = some r ∧ r.equation.point?.isSome = true
  /-- Each curve is shown with the text, the color, the class, the error and the sliders that its
  equation has, and with what is drawn of it. -/
  curve : ∀ v ∈ shot.curves, ∃ r, s.rows.get? v.id = some r ∧
    v.text = r.equation.raw ∧ v.color = r.color ∧ v.classification = r.equation.classification ∧
    v.error? = r.equation.error?.map CompileError.message ∧ v.parameters = r.equation.parameters ∧
    (r.equation.isImplicit = true →
      v.shape = .contour (s.drawn r).quality (s.drawn r).segments) ∧
    (r.equation.isImplicit = false → v.shape = .polyline (s.polyline v.id))
  /-- Each point is shown where its equation puts it, in its color. -/
  point : ∀ p ∈ shot.points, ∃ r x y,
    s.rows.get? p.1 = some r ∧ r.equation.point? = some (x, y) ∧ p.2 = ⟨x, y, r.color⟩
  /-- The same part of the plane is seen. -/
  viewport : shot.viewport = s.viewport
  /-- The grid has the steps that the scale asks for. -/
  grid : shot.grid = Viewport.gridSteps s.viewport.scale
  /-- The intercepts are those of the scene. -/
  intercepts : shot.intercepts = s.intercepts
  /-- The intersections are those of the scene. -/
  intersections : shot.intersections = s.intersections
  /-- The pins are those of the scene. -/
  pins : shot.pins = s.pins

namespace Scene

/-- Whatever is listed of the rows stands in the order of their numbers. -/
theorem pairwise_filterMap_entries {α : Type} (s : Scene) {f : Nat × Row → Option α} {id : α → Nat}
    (h : ∀ e a, f e = some a → id a = e.1) :
    ((s.rows.entries.filterMap f).map id).Pairwise (· < ·) := by
  rw [List.pairwise_map, List.pairwise_filterMap]
  -- the rows themselves stand in this order
  refine s.rows.ascending.imp fun {e e'} hlt a ha a' ha' => ?_
  rw [h e a ha, h e' a' ha']
  exact hlt

/-- **A snapshot is complete,** and all that it holds is the scene's own. -/
theorem captures_snapshot (s : Scene) : s.snapshot.2.Captures s := by
  have hpoints : s.snapshot.2.points = s.points := by
    show s.prepared.points = s.points
    rw [prepared_eq_readyAt, points_readyAt]
  constructor
  case curves_ascending =>
    show (s.prepared.frame.curves.map (·.id)).Pairwise (· < ·)
    rw [prepared_eq_readyAt, curves_readyAt]
    refine pairwise_filterMap_entries s fun e v hv => ?_
    split at hv
    · cases hv
    · rw [← Option.some.inj hv]
      rfl
  case points_ascending =>
    rw [hpoints]
    refine pairwise_filterMap_entries s fun e p hp => ?_
    obtain ⟨q, -, rfl⟩ := Option.map_eq_some_iff.mp hp
    rfl
  case mem_curves =>
    intro id
    rw [List.mem_map]
    constructor
    · -- a curve that is listed is an equation that is no point
      rintro ⟨v, hv, rfl⟩
      obtain ⟨r, hr, hpoint, -⟩ := mem_curves_snapshot.mp hv
      exact ⟨r, hr, hpoint⟩
    · -- and such an equation is listed
      rintro ⟨r, hr, hpoint⟩
      exact ⟨s.curveOf id r, mem_curves_snapshot.mpr ⟨r, hr, hpoint, rfl⟩, rfl⟩
  case mem_points =>
    intro id
    rw [hpoints, List.mem_map]
    constructor
    · rintro ⟨p, hp, rfl⟩
      obtain ⟨r, x, y, hr, hpoint, -⟩ := Scene.mem_points.mp hp
      exact ⟨r, hr, Option.isSome_of_eq_some hpoint⟩
    · rintro ⟨r, hr, hpoint⟩
      obtain ⟨q, hq⟩ := Option.isSome_iff_exists.mp hpoint
      exact ⟨(id, ⟨q.1, q.2, r.color⟩), Scene.mem_points.mpr ⟨r, q.1, q.2, hr, hq, rfl⟩, rfl⟩
  case curve =>
    intro v hv
    obtain ⟨r, hr, -, heq⟩ := mem_curves_snapshot.mp hv
    refine ⟨r, hr, ?_⟩
    rw [heq]
    refine ⟨rfl, rfl, rfl, rfl, rfl, fun himplicit => ?_, fun himplicit => ?_⟩
    · exact if_pos himplicit
    · exact if_neg (Bool.eq_false_iff.mp himplicit)
  case point =>
    intro p hp
    rw [hpoints] at hp
    exact Scene.mem_points.mp hp
  all_goals
    -- nothing else depends on what was made ready
    unfold snapshot
    rw [prepared_eq_readyAt]
    rfl

/-- **A snapshot is complete and can be repeated.** It holds all equations as they are; it changes
nothing in the scene but that a preview is kept, of this very view, of each implicit curve of which
nothing was kept that may be drawn; and right after it a second one is the same. -/
theorem snapshot_complete (s : Scene) :
    s.snapshot.2.Captures s ∧
    s.snapshot.1 = { s with rows := s.rows.mapValues fun _ r =>
      if r.equation.isImplicit = true ∧ r.contour.filter s.shows = none then
        { r with contour := some (previewOf s.settings s.viewport r.equation) }
      else r } ∧
    s.snapshot.1.snapshot = s.snapshot := by
  refine ⟨captures_snapshot s, prepared_eq s, ?_⟩
  show (s.prepared.prepared, s.prepared.prepared.frame) = (s.prepared, s.prepared.frame)
  rw [prepared_prepared]

end Scene

end CurvePlot
