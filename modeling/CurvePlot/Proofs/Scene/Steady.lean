import CurvePlot.Proofs.Double.Decoding
import CurvePlot.Proofs.Samples
import CurvePlot.Proofs.Scene.Tended
/-!
# Strips that have come to rest

To refresh an equation twice is to refresh it once. For a strip that serves the view this
is so because it is kept. But a strip that was just built may fail to serve the very range
it was built for, by a rounding or because it has no samples, and then it is slid. It is
slid in place: the distance from where it begins to where it should begin is no step, since
both are the same double (`Strip.slide_in_place`). So it serves no better than before, and
the strip is built anew as it was (`refreshedStrip_refreshedStrip`).

A graph whose strip is what a refresh would make of it is `Row.Steady`. While the view
rests all graphs are, except those that wait for their slider (`Scene.Steady`). Other
operations than refreshes either leave the strip and the curve of a row alone
(`Row.SameGraph`), or move the view, or write the row and refresh it.
-/

namespace CurvePlot

namespace Strip

variable {curve : Float → Float} {settings : Settings Float} {s s' : Strip Float}
  {min max pixelWidth : Float}

/-- **A strip that has not slid since it was built for a range is not moved by sliding to
it.** -/
theorem slide_in_place (hoffset : s.offset = 0) (hfinite : s.step.isFinite = true)
    (hpos : ¬s.step ≤ 0.0) (horigin : s.origin = min - margin s.visibleWidth settings)
    (h : s.slide? curve min max settings = some s') : s' = s.shifted curve 0 := by
  have hstart : s.startX = Double.fma (Float.ofInt 0) s.step s.origin := by
    unfold startX place
    rw [hoffset]
    rfl
  -- it begins where it was built to begin, so the distance that it is to slide rounds to no step
  have hnone := Double.round_sub_fma_zero hfinite hpos s.origin
  rw [← hstart] at hnone
  unfold slide? at h
  dsimp only at h
  rw [← horigin] at h
  split at h
  · -- it is empty, or the range is of another width
    cases h
  · split at h
    · -- the distance is no number, or too long
      cases h
    · next hshift =>
      simp only [Bool.or_eq_true, Bool.not_eq_true', decide_eq_true_eq, not_or,
        Bool.not_eq_false] at hshift
      -- either the distance does not round to a number or it rounds to nothing, and a strip that is
      -- slid has passed the first
      have hzero : Double.toInt (Double.round ((s.origin - s.startX) / s.step)) = 0 := by
        refine hnone.resolve_left fun hnot => ?_
        exact Bool.false_ne_true (hnot.symm.trans hshift.1)
      exact (Option.some.inj h).symm.trans (congrArg (s.shifted curve) hzero)

/-- Moving by no steps does not change what a strip serves. -/
theorem serves_shifted_zero (s : Strip Float) (curve : Float → Float) (min max pixelWidth : Float) :
    (s.shifted curve 0).serves min max pixelWidth = s.serves min max pixelWidth := by
  have hoffset : (s.shifted curve 0).offset = s.offset := Int.add_zero s.offset
  have hstart : (s.shifted curve 0).startX = s.startX := by
    unfold startX
    rw [hoffset]
    rfl
  unfold serves isEmpty endX
  rw [size_shifted, hstart]
  rfl

/-- **A new strip that does not serve its range does not come to serve it by sliding.** -/
theorem serves_of_slide_build
    (h : (build curve min max pixelWidth settings).slide? curve min max settings = some s) :
    s.serves min max pixelWidth =
      (build curve min max pixelWidth settings).serves min max pixelWidth := by
  have hslid : s = (build curve min max pixelWidth settings).shifted curve 0 := by
    unfold build at h ⊢
    dsimp only at h ⊢
    split
    · next hnone =>
      -- without samples there is nothing to slide
      rw [if_pos hnone] at h
      cases h
    · next hsome =>
      rw [if_neg hsome] at h
      simp only [Bool.or_eq_true, Bool.not_eq_true', decide_eq_true_eq, not_or,
        Bool.not_eq_false] at hsome
      exact slide_in_place rfl hsome.1.2 hsome.2 rfl h
  rw [hslid, serves_shifted_zero]

end Strip

namespace Scene

section Refresh

variable (settings : Settings Float) (view : Viewport Float) (eq : Equation)

/-- A strip that serves is kept. -/
theorem refreshedStrip_of_serves {strip : Strip Float}
    (h : strip.serves view.rangeX.1 view.rangeX.2 view.width = true) :
    refreshedStrip settings view eq (some strip) = strip := by
  unfold refreshedStrip
  dsimp only [Option.bind_eq_bind, Option.bind_some]
  rw [if_pos h]
  rfl

/-- A strip that does not serve is new. -/
theorem refreshedStrip_eq_build {old : Option (Strip Float)}
    (h : (refreshedStrip settings view eq old).serves view.rangeX.1 view.rangeX.2 view.width =
      false) : refreshedStrip settings view eq old =
        .build eq.curve view.rangeX.1 view.rangeX.2 view.width settings := by
  unfold refreshedStrip at h ⊢
  cases old with
  | none => rfl
  | some strip =>
    dsimp only [Option.bind_eq_bind, Option.bind_some] at h ⊢
    split at h
    · next hserves =>
      -- what is kept serves
      exact absurd (h.symm.trans hserves) Bool.false_ne_true
    · next hfails =>
      rw [if_neg hfails]
      cases hslide : strip.slide? eq.curve view.rangeX.1 view.rangeX.2 settings with
      -- nothing to slide
      | none => rfl
      | some slid =>
        rw [hslide, Option.filter_some] at h
        rw [Option.filter_some]
        split at h
        · next hserves => exact absurd (h.symm.trans hserves) Bool.false_ne_true
        · -- what was slid is thrown away for a new strip
          next hfails' => rw [if_neg hfails']; rfl

/-- **To refresh a strip twice is to refresh it once.** -/
theorem refreshedStrip_refreshedStrip (old : Option (Strip Float)) :
    refreshedStrip settings view eq (some (refreshedStrip settings view eq old)) =
      refreshedStrip settings view eq old := by
  by_cases hserves : (refreshedStrip settings view eq old).serves view.rangeX.1 view.rangeX.2
      view.width = true
  · exact refreshedStrip_of_serves settings view eq hserves
  · have hfails := Bool.eq_false_iff.mpr hserves
    have hbuild := refreshedStrip_eq_build settings view eq hfails
    rw [hbuild] at hfails ⊢
    -- the new strip may be slid, but what comes of it does not serve either
    unfold refreshedStrip
    dsimp only [Option.bind_eq_bind, Option.bind_some]
    rw [if_neg (Bool.eq_false_iff.mp hfails)]
    cases hslide : (Strip.build eq.curve view.rangeX.1 view.rangeX.2 view.width settings).slide?
        eq.curve view.rangeX.1 view.rangeX.2 settings with
    | none => rfl
    | some slid =>
      rw [Option.filter_some, Strip.serves_of_slide_build hslide, hfails]
      rfl

end Refresh

end Scene

/-! ### Rows -/

/-- A graph is not traced. -/
theorem Equation.isImplicit_of_isExplicit {eq : Equation} (h : eq.isExplicit = true) :
    eq.isImplicit = false := by
  unfold isExplicit at h
  unfold isImplicit
  -- the two kinds of graphs are not what is traced
  cases hclass : eq.classification <;> rw [hclass] at h <;> first | rfl | cases h

/-- **The row keeps the strip that a refresh would make of it.** -/
def Row.Steady (settings : Settings Float) (view : Viewport Float) (r : Row) : Prop :=
  r.equation.isExplicit = true →
    r.strip = some (Scene.refreshedStrip settings view r.equation r.strip)

/-- The rows have the same graph, kept in the same strip. -/
structure Row.SameGraph (r r' : Row) : Prop where
  /-- They are valid alike. -/
  isValid : r'.equation.isValid = r.equation.isValid
  /-- They are graphs alike. -/
  isExplicit : r'.equation.isExplicit = r.equation.isExplicit
  /-- The same function is drawn. -/
  curve : r'.equation.curve = r.equation.curve
  /-- The same strip is kept. -/
  strip : r'.strip = r.strip

/-- What a refresh makes of a strip depends on the curve only. -/
theorem Row.Steady.congr {settings : Settings Float} {view : Viewport Float} {r r' : Row}
    (h : r.Steady settings view) (hr : r.SameGraph r') : r'.Steady settings view := by
  intro hexplicit
  rw [hr.isExplicit] at hexplicit
  have hsteady := h hexplicit
  unfold Scene.refreshedStrip at hsteady ⊢
  rw [hr.strip, hr.curve]
  exact hsteady

namespace Scene

/-- **While the view rests, all rows are steady** but for some equations. -/
def Steady (excused : Nat → Prop) (s : Scene) : Prop :=
  s.isInteracting = false → ∀ id r, s.rows.get? id = some r → ¬excused id →
    r.Steady s.settings s.viewport

/-! ### What a refresh of one equation does -/

/-- Fine passes apart, nothing is left to say of asking for one. -/
theorem requestFine_eq (s : Scene) (id : Nat) (eq : Equation) :
    ∃ jobs, s.requestFine id eq = { s with jobs := jobs } := by
  unfold requestFine
  split
  · exact ⟨s.jobs, rfl⟩
  · exact ⟨_, rfl⟩

/-- Where there is no equation, nothing is brought up to date. -/
theorem refreshEquation_of_none {s : Scene} {id : Nat} (h : s.rows.get? id = none) :
    s.refreshEquation id = s := by
  unfold refreshEquation
  rw [h]

/-- **Bringing an equation up to date** writes its row only, and of its graph the strip
only. -/
theorem refreshEquation_eq {s : Scene} {id : Nat} {r : Row} (hr : s.rows.get? id = some r) :
    ∃ f jobs, s.refreshEquation id = { s with rows := s.rows.modify id f, jobs := jobs } ∧
      (f r).equation = r.equation ∧
      (f r).strip = if r.equation.isExplicit then
        some (refreshedStrip s.settings s.viewport r.equation r.strip) else r.strip := by
  -- a row that stays is a row that is rewritten as it is
  have hself : s = { s with rows := s.rows.modify id fun r => r, jobs := s.jobs } := by
    have hrows : s.rows.modify id (fun r => r) = s.rows := by
      ext1
      simp [Keyed.modify, Keyed.mapValues]
    rw [hrows]
  unfold refreshEquation Equation.isExplicit
  rw [hr]
  cases hclass : r.equation.classification with
  | point x y =>
    -- a point has no strip that a refresh would make
    simp only [hclass]
    exact ⟨_, _, hself, rfl, rfl⟩
  | explicit | linearInY =>
    simp only [hclass]
    exact ⟨_, s.jobs, rfl, rfl, rfl⟩
  | implicit =>
    simp only [hclass]
    split
    · exact ⟨_, _, hself, rfl, rfl⟩
    · obtain ⟨jobs, hjobs⟩ := requestFine_eq
        (s.updateRow id fun r' => { r' with contour := some (s.standIn r) }) id r.equation
      exact ⟨fun r' => { r' with contour := some (s.standIn r) }, jobs, hjobs, rfl, rfl⟩

namespace Steady

variable {s s' : Scene} {id : Nat} {excused excused' : Nat → Prop}

/-- Equations may be excused further. -/
theorem mono (h : s.Steady excused) (hE : ∀ i, excused i → excused' i) : s.Steady excused' :=
  fun hrest i r hr hi => h hrest i r hr fun hex => hi (hE i hex)

/-- While the view moves, no row need be steady. -/
theorem of_interacting (hmoves : s.isInteracting = true) : s.Steady excused := by
  intro hrest
  rw [hmoves] at hrest
  cases hrest

/-- When everything is excused, there is nothing to show. -/
theorem of_true : s.Steady fun _ => True := fun _ _ _ _ hi => absurd trivial hi

/-- A row may be written altogether, which upsets its equation at most. -/
theorem rewrite (h : s.Steady excused) (id : Nat) (rows : Keyed Nat Row)
    (hother : ∀ i, i ≠ id → rows.get? i = s.rows.get? i) :
    Steady (fun i => excused i ∨ i = id) { s with rows := rows } := by
  intro hrest i r hr hi
  have hne : i ≠ id := fun hid => hi (.inr hid)
  exact h hrest i r (hother i hne ▸ hr) fun hex => hi (.inl hex)

/-- A row may change anything but its graph. -/
theorem updateRow (h : s.Steady excused) (id : Nat) {f : Row → Row}
    (hf : ∀ r, s.rows.get? id = some r → r.SameGraph (f r)) :
    (s.updateRow id f).Steady excused := by
  intro hrest i r hr hi
  by_cases hid : i = id
  · subst hid
    -- this is the row that is written, so its graph is that of the old row
    rw [Scene.updateRow, Keyed.get?_modify_self] at hr
    obtain ⟨old, hold, rfl⟩ := Option.map_eq_some_iff.mp hr
    exact (h hrest i old hold hi).congr (hf old hold)
  · -- the other rows stay
    rw [Scene.updateRow, Keyed.get?_modify_of_ne s.rows f hid] at hr
    exact h hrest i r hr hi

/-- **An equation that is brought up to date is steady.** -/
theorem refreshEquation (h : s.Steady excused) (id : Nat) :
    (s.refreshEquation id).Steady fun i => excused i ∧ i ≠ id := by
  cases hr : s.rows.get? id with
  | none =>
    rw [refreshEquation_of_none hr]
    intro hrest i r hr' hi
    -- the equation is not there, so no row needs the new excuse
    refine h hrest i r hr' fun hex => hi ⟨hex, ?_⟩
    rintro rfl
    rw [hr] at hr'
    cases hr'
  | some r =>
    obtain ⟨f, jobs, heq, hequation, hstrip⟩ := refreshEquation_eq hr
    rw [heq]
    intro hrest i r' hr' hi
    by_cases hid : i = id
    · -- its strip was just made, and would be made again as it is
      subst hid
      rw [Keyed.get?_modify_self, hr] at hr'
      obtain rfl := Option.some.inj hr'
      intro hexplicit
      rw [hequation] at hexplicit ⊢
      rw [hstrip, if_pos hexplicit, refreshedStrip_refreshedStrip]
    · -- the other rows stay
      rw [Keyed.get?_modify_of_ne s.rows f hid] at hr'
      exact h hrest i r' hr' fun hex => hi ⟨hex, hid⟩

/-- What is brought up to date one after the other is steady in the end. -/
theorem foldl_refreshEquation (h : s.Steady excused) (ids : List Nat) :
    (ids.foldl Scene.refreshEquation s).Steady fun i => excused i ∧ i ∉ ids :=
  foldl_refreshEquation_of (P := Scene.Steady) mono (fun h id => h.refreshEquation id) h ids

/-- **A refresh of all equations leaves none upset.** -/
theorem refreshAll (s : Scene) : s.refreshAll.Steady excused := by
  have hfolded := (of_true (s := s)).foldl_refreshEquation s.rows.keys
  -- the refreshes leave the same equations there, so the rows at the end are those that were
  -- refreshed
  have hsame := Refreshed.foldl_refreshEquation s s.rows.keys
  intro hrest i r hr _
  refine hfolded hrest i r hr fun hex => hex.2 ?_
  rw [← hsame.keys]
  exact Keyed.mem_keys.mpr ⟨r, hr⟩

end Steady

end Scene

end CurvePlot
