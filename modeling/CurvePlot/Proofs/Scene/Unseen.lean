import CurvePlot.Proofs.Contour.Watertight
import CurvePlot.Proofs.Double.Undefined
import CurvePlot.Proofs.Scene.Caches
import CurvePlot.Proofs.Scene.Compiled
import CurvePlot.Proofs.Scene.Landmarks
import CurvePlot.Proofs.Scene.Strokes
/-!
# An equation that cannot be read is not seen

A text that cannot be read makes an equation all the same, with a row, a place in the
order, perhaps a strip and passes of its own. Its curve and its field are undefined
everywhere, and each of those who draw does without it in its own way:

* a cell without values at its corners has no segments, in large cells and in small ones;
* between samples without a value, a strip has none (`Strip.valueAt_undefined`);
* what is not finite breaks a polyline off before it begins;
* nothing undefined is nearer to the cursor than anything;
* landmarks are not sought on it at all.

What a row keeps belongs to its equation as it is (`Row.Current`), so that nothing is left of
an older text that could be read. The same holds of the landmarks: they may be older than the
scene, but not older than the text (`exists_origin`).
-/

namespace CurvePlot

/-! ### Passes over a field without values -/

namespace Lattice

variable (minX maxY dx dy : Float) (columns rows : Nat)

theorem value_evaluate_undefined (i j : Nat) :
    (evaluate (fun _ _ => Double.undefined) minX maxY dx dy columns rows).value i j =
      Double.undefined := by
  let l := evaluate (fun _ _ => Double.undefined) minX maxY dx dy columns rows
  show (l.values[j * (l.columns + 1) + i]?).getD Double.undefined = Double.undefined
  cases hv : l.values[j * (l.columns + 1) + i]? with
  | none => rfl
  | some v =>
    -- every value of the lattice was put there from the field
    obtain ⟨_, -, hrow⟩ := Array.mem_flatMap.mp (Array.mem_of_getElem? hv)
    obtain ⟨_, -, rfl⟩ := Array.mem_map.mp hrow
    rfl

/-- **Where a field has no value, there is nothing to march along.** -/
theorem segments_evaluate_undefined :
    (evaluate (fun _ _ => Double.undefined) minX maxY dx dy columns rows).segments = [] := by
  refine List.flatMap_eq_nil_iff.mpr fun (i, j) _ => march_of_not_defined fun hdefined => ?_
  -- no cell has a corner with a value
  have hcorner := hdefined _ List.mem_cons_self
  rw [value_evaluate_undefined] at hcorner
  cases hcorner

end Lattice

namespace Contour

variable (view : Viewport Float) (settings : Settings Float)

theorem coarse_undefined : coarse (fun _ _ => Double.undefined) view settings = [] := by
  unfold coarse
  dsimp only
  split
  · rfl
  · exact Lattice.segments_evaluate_undefined _ _ _ _ _ _

theorem fine_undefined {cancelled : Bool} {segments : List (Segment Float)}
    (h : fine (fun _ _ => Double.undefined) view settings cancelled = some segments) :
    segments = [] := by
  unfold fine at h
  dsimp only at h
  split at h
  · exact (Option.some.inj h).symm
  · split at h
    · cases h
    · rw [← Option.some.inj h]
      -- the cells that are refined would be empty too
      exact List.flatMap_eq_nil_iff.mpr fun _ _ => Lattice.segments_evaluate_undefined _ _ _ _ _ _

end Contour

namespace Strip

variable {s : Strip Float}

theorem sampleAt_undefined (h : s.Accurate fun _ => Double.undefined) (i : Nat) :
    s.sampleAt i = Double.undefined := by
  unfold sampleAt
  by_cases hi : i < s.size
  · -- inside the ring the sample is that of the curve
    rw [h i hi]
    rfl
  · -- outside there is none
    have hnone : s.samples.get? i = none := if_neg hi
    rw [hnone]
    rfl

/-- **Between samples without a value there is none either.** -/
theorem valueAt_undefined (h : s.Accurate fun _ => Double.undefined) (x : Float) :
    s.valueAt x = Double.undefined := by
  unfold valueAt
  dsimp only
  -- outside the strip, on a sample and between two: nowhere is there a value
  split
  · rfl
  · split
    · rfl
    · rw [sampleAt_undefined h, sampleAt_undefined h]
      split
      · rfl
      · show Double.fma _ (Double.undefined - Double.undefined) Double.undefined = _
        rw [Double.sub_undefined, Double.fma_undefined]

end Strip

namespace Equation

variable {eq : Equation}

theorem curve_of_invalid (h : eq.isValid = false) : eq.curve = fun _ => Double.undefined := by
  unfold isValid at h
  funext x
  unfold curve valueAt
  cases houtcome : eq.outcome with
  | error e => rfl
  | ok f => rw [houtcome] at h; cases h

theorem field_of_invalid (h : eq.isValid = false) : eq.field = fun _ _ => Double.undefined := by
  unfold isValid at h
  funext x y
  unfold field fieldAt
  cases houtcome : eq.outcome with
  | error e => rfl
  | ok f => rw [houtcome] at h; cases h

end Equation

namespace Row

variable {settings : Settings Float} {r : Row}

theorem Current.valueAt_of_invalid (h : r.Current settings) (hinvalid : r.equation.isValid = false)
    (x : Float) : r.valueAt x = Double.undefined := by
  have hcurve := Equation.curve_of_invalid hinvalid
  unfold valueAt
  split
  · next strip hstrip =>
    -- a strip is kept, and is read where it covers the place
    split
    · exact Strip.valueAt_undefined (hcurve ▸ h.strip_accurate strip hstrip) x
    · rw [hcurve]
  · rw [hcurve]

theorem Current.segments_of_invalid (h : r.Current settings)
    (hinvalid : r.equation.isValid = false) {c : Contour Float} (hc : r.contour = some c) :
    c.segments = [] := by
  have htraced := h.contour_traced c hc
  rw [Equation.field_of_invalid hinvalid] at htraced
  unfold Contour.TracedFrom at htraced
  -- the contour is one of a coarse or of a fine pass
  split at htraced
  · rw [htraced, Contour.coarse_undefined]
  · exact Contour.fine_undefined _ _ htraced

theorem graph?_of_invalid (h : r.equation.isValid = false) : r.graph? = none := by
  unfold graph? isCurve
  rw [h]
  rfl

end Row

namespace Scene

variable {s : Scene} {id : Nat} {r : Row}

/-- The scene without one of its equations, everything else as it is. -/
def without (s : Scene) (id : Nat) : Scene := { s with rows := s.rows.erase id }

/-- **Nothing is to be seen of an equation.** No contour has a segment, whether it is kept,
asked for, or left by any pass, and what lies under the cursor and what landmarks are found
does not depend on whether the equation is there. -/
structure Unseen (s : Scene) (id : Nat) (r : Row) : Prop where
  curveY : ∀ x, (s.curveY id x).isNaN = true
  polyline : s.polyline id = []
  kept : ∀ c, r.contour = some c → c.segments = []
  asked : ∀ c, (s.contour id).2 = some c → c.segments = []
  coarse : ∀ view, Contour.coarse r.equation.field view s.settings = []
  fine : ∀ view cancelled segments,
    Contour.fine r.equation.field view s.settings cancelled = some segments → segments = []
  hover : ∀ px py, s.hover px py = (s.without id).hover px py
  intercepts : s.refreshDerived.intercepts = (s.without id).refreshDerived.intercepts
  intersections : s.refreshDerived.intersections = (s.without id).refreshDerived.intersections

theorem graphs_without (hr : s.rows.get? id = some r) (hinvalid : r.equation.isValid = false) :
    (s.without id).graphs = s.graphs := by
  -- what is left out has no graph
  refine Keyed.filterMap_values_erase fun r' hr' => ?_
  obtain rfl : r = r' := Option.some.inj (hr.symm.trans hr')
  exact Row.graph?_of_invalid hinvalid

/-- Nobody misses a graph that is not near. -/
theorem filterMap_explicit_erase {β : Type} {near : Row → Option β}
    (hr : s.rows.get? id = some r) (hnone : near r = none) :
    ((s.rows.erase id).values.filter fun r => r.equation.isExplicit).filterMap near =
      (s.rows.values.filter fun r => r.equation.isExplicit).filterMap near := by
  rw [List.filterMap_filter, List.filterMap_filter]
  refine Keyed.filterMap_values_erase fun r' hr' => ?_
  obtain rfl : r = r' := Option.some.inj (hr.symm.trans hr')
  rw [hnone, ite_self]

theorem hover_without (hrow : r.Current s.settings) (hr : s.rows.get? id = some r)
    (hinvalid : r.equation.isValid = false) (px py : Float) :
    (s.without id).hover px py = s.hover px py := by
  unfold hover without
  dsimp only
  rw [filterMap_explicit_erase hr]
  -- its distance from the cursor is undefined, and that is below no limit
  rw [hrow.valueAt_of_invalid hinvalid, Double.undefined_sub, Double.abs_undefined,
    if_neg (Double.not_undefined_lt _)]

/-- **An equation is not seen if it cannot be read** and what is kept of it is its own. -/
theorem unseen_of_invalid (hrow : r.Current s.settings) (hr : s.rows.get? id = some r)
    (hinvalid : r.equation.isValid = false) : s.Unseen id r where
  curveY x := by
    unfold Scene.curveY
    split
    · next r' hr' =>
      obtain rfl : r = r' := Option.some.inj (hr.symm.trans (Option.filter_eq_some_iff.mp hr').1)
      rw [hrow.valueAt_of_invalid hinvalid]
      exact Double.isNaN_undefined
    · exact Double.isNaN_undefined
  polyline := by
    unfold Scene.polyline
    split
    · next r' hr' =>
      obtain rfl : r = r' := Option.some.inj (hr.symm.trans (Option.filter_eq_some_iff.mp hr').1)
      refine strokes_of_not_hasValue fun p hp => ?_
      obtain ⟨column, -, rfl⟩ := List.mem_map.mp hp
      show (r.valueAt _).isFinite = false
      rw [hrow.valueAt_of_invalid hinvalid]
      exact Double.isFinite_undefined
    · rfl
  kept c hc := hrow.segments_of_invalid hinvalid hc
  asked c hc := by
    unfold Scene.contour at hc
    split at hc
    · cases hc
    · next r' hr' =>
      obtain rfl : r = r' := Option.some.inj (hr.symm.trans (Option.filter_eq_some_iff.mp hr').1)
      split at hc
      · next kept hkept =>
        rw [← Option.some.inj hc]
        exact hrow.segments_of_invalid hinvalid (Option.filter_eq_some_iff.mp hkept).1
      · -- nothing is kept, and a preview is traced
        rw [← Option.some.inj hc, previewOf, Equation.field_of_invalid hinvalid]
        exact Contour.coarse_undefined _ _
  coarse view := by
    rw [Equation.field_of_invalid hinvalid]
    exact Contour.coarse_undefined view s.settings
  fine view cancelled segments h := by
    rw [Equation.field_of_invalid hinvalid] at h
    exact Contour.fine_undefined view s.settings h
  hover px py := (hover_without hrow hr hinvalid px py).symm
  intercepts := by
    rw [intercepts_refreshDerived, intercepts_refreshDerived, graphs_without hr hinvalid]
    rfl
  intersections := by
    rw [intersections_refreshDerived, intersections_refreshDerived, graphs_without hr hinvalid]
    rfl

/-- Equations that read the same are valid or not together. -/
theorem Compiled.isValid_of_text {settings : Settings Float} {s t : Scene} (hs : s.Compiled settings)
    (ht : t.Compiled settings) {id : Nat} {r : Row} (hr : s.rows.get? id = some r)
    (htext : s.text? id = t.text? id) :
    ∃ r', t.rows.get? id = some r' ∧ r'.equation.isValid = r.equation.isValid := by
  unfold text? at htext
  rw [hr, Option.map_some] at htext
  obtain ⟨r', hr', hraw⟩ := Option.map_eq_some_iff.mp htext.symm
  refine ⟨r', hr', ?_⟩
  unfold Equation.isValid
  rw [(hs.row id r hr).outcome, (ht.row id r' hr').outcome, hraw]

/-- **An equation that cannot be read is not seen,** after any run. The landmarks that are
kept were found in a scene of the past in which it could not be read either, and they are
those that would have been found there without it. -/
theorem run_unseen (settings : Settings Float) (width height : Float) (actions : List Action) :
    let s := (Scene.new settings width height).run actions
    ∀ id r, s.rows.get? id = some r → r.equation.isValid = false →
      s.Unseen id r ∧
      ∃ before, before <+: actions ∧
        let t := (Scene.new settings width height).run before
        (∃ r', t.rows.get? id = some r' ∧ r'.equation.isValid = false) ∧
        s.intercepts = (t.without id).refreshDerived.intercepts ∧
        s.intersections = (t.without id).refreshDerived.intersections := by
  intro s id r hr hinvalid
  have hcurrent : s.Current 0 0 := (Current.start settings width height).run actions
  refine ⟨unseen_of_invalid (hcurrent.row id r hr) hr hinvalid, ?_⟩
  obtain ⟨before, hprefix, hderived, hkept⟩ := exists_origin settings width height actions
  let t := (Scene.new settings width height).run before
  have hcompiled : s.Compiled settings := .run settings width height actions
  -- the equation could not be read when the landmarks were found either
  obtain ⟨r', hr', hsame⟩ :=
    hcompiled.isValid_of_text (.run settings width height before) hr (hkept.text id)
  have hinvalid' : r'.equation.isValid = false := hsame.trans hinvalid
  have hcurrent' : t.Current 0 0 := (Current.start settings width height).run before
  have hunseen := unseen_of_invalid (hcurrent'.row id r' hr') hr' hinvalid'
  exact ⟨before, hprefix, ⟨r', hr', hinvalid'⟩,
    (hkept.intercepts.trans hderived.1).trans hunseen.intercepts,
    (hkept.intersections.trans hderived.2).trans hunseen.intersections⟩

/-- A relation with a sign that does not exist is added, and it would have been traced. -/
theorem run_unseen_unknown :
    let s := (Scene.new .standard 800.0 600.0).run [.add "y^2=#x"]
    ∃ r, s.rows.get? 0 = some r ∧ r.equation.isValid = false ∧ r.equation.isImplicit = true ∧
      s.Unseen 0 r := by
  intro s
  -- the refresh behind the adding changes no equation, so the row is the one that was added
  let first : Scene := Scene.new .standard 800.0 600.0
  let added : Scene := { first with
    palette := first.palette.advance
    rows := first.rows.insert 0 (Row.fresh (first.compile "y^2=#x") first.palette.upcoming)
    nextId := 1 }
  have hadded : Refreshed added s := (Refreshed.refreshEquation added 0).refreshDerived
  have hrow : 0 ∈ s.rows.keys := by
    rw [hadded.keys]
    exact Keyed.mem_keys.mpr ⟨_, Keyed.get?_insert_self _ 0 _⟩
  obtain ⟨r, hr⟩ := Keyed.mem_keys.mp hrow
  obtain ⟨old, hold, heq⟩ := hadded.equation 0 r hr
  have hcompiled : r.equation = first.compile "y^2=#x" := by
    rw [Keyed.get?_insert_self] at hold
    rw [heq, ← Option.some.inj hold]
    rfl
  have hinvalid : r.equation.isValid = false := by
    rw [hcompiled]
    decide +kernel
  have himplicit : r.equation.isImplicit = true := by
    rw [hcompiled]
    decide +kernel
  exact ⟨r, hr, hinvalid, himplicit, (run_unseen .standard 800.0 600.0 _ 0 r hr hinvalid).1⟩

end Scene

end CurvePlot
