import CurvePlot.Proofs.Contour.Reuse
import CurvePlot.Proofs.JobBoard.Flight
import CurvePlot.Proofs.Scene.Current
/-!
# Implicit curves are tended

An implicit curve is first drawn from a preview, and a fine pass is begun that will take
the preview's place. It would be stranded if it had a preview only and no fine pass were
under way for the view that is shown. `Served` says that it is not.

Between a change of the view and the refresh that follows, no curve need be served, and
while a slider moves its equation need not be. So the invariant `Tended` excuses some
equations; each operation excuses the equations that it upsets, and refreshing an
equation takes the excuse back (`Tended.refreshEquation`). The other clauses are needed
for this:

* a fine pass is awaited only for an equation that has a preview (`preview`), so that a
  fine contour is never given up for a pass under an older view, and a result that comes
  may take the place of what is kept;
* the view is regular and the tolerance is not negative (`view`, `tolerance`), since
  otherwise nothing may be used again, not even under the same view.

Every operation except those on the view concerns one equation and leaves the others
alone (`Apart`). What it has to show is then about this equation (`Tended.step`).
-/

namespace CurvePlot.Scene

/-- **A fine contour is there to be drawn, or it is on its way** and a preview is there to
be drawn until it comes. -/
def Served (s : Scene) (id : Nat) (r : Row) : Prop :=
  (∃ c, r.contour = some c ∧ c.quality = .fine ∧
    c.isReusable s.viewport s.settings.driftTolerance = true) ∨
  (s.jobs.isRunningFor id s.viewport = true ∧
    ∃ c, r.contour = some c ∧ c.quality = .preview ∧ c.isReusable s.viewport 0.0 = true)

/-- **Implicit curves are served while the view rests,** except for some equations. -/
structure Tended (excused : Nat → Prop) (s : Scene) : Prop where
  /-- Contours may be used again. -/
  tolerance : (0.0 : Float) ≤ s.settings.driftTolerance
  /-- The view is one that can be traced. -/
  view : s.viewport.Regular
  /-- What is awaited will take the place of a preview. -/
  preview : ∀ id x, s.jobs.inFlight.get? id = some x →
    ∃ r c, s.rows.get? id = some r ∧ r.contour = some c ∧ c.quality = .preview
  /-- While the view rests, implicit curves are served. -/
  served : s.isInteracting = false → ∀ id r, s.rows.get? id = some r →
    r.equation.isImplicit = true → ¬ excused id → s.Served id r

/-- Nothing has changed but what belongs to one equation. -/
structure Apart (id : Nat) (s s' : Scene) : Prop where
  /-- The settings are the same. -/
  settings : s'.settings = s.settings
  /-- The same part of the plane is seen. -/
  viewport : s'.viewport = s.viewport
  /-- The view moves in both or in none. -/
  isInteracting : s'.isInteracting = s.isInteracting
  /-- The other rows are the same. -/
  rows : ∀ i, i ≠ id → s'.rows.get? i = s.rows.get? i
  /-- The same passes are awaited for other equations. -/
  inFlight : ∀ i, i ≠ id → s'.jobs.inFlight.get? i = s.jobs.inFlight.get? i

variable {s s' : Scene} {id : Nat} {r : Row} {excused excused' : Nat → Prop}

theorem isFine_iff {c : Contour Float} : c.isFine = true ↔ c.quality = .fine := decide_eq_true_iff

/-- What serves a row depends on the view and on the pass of its equation. -/
theorem Served.congr (h : s.Served id r) (hsettings : s'.settings = s.settings)
    (hviewport : s'.viewport = s.viewport)
    (hinFlight : s'.jobs.inFlight.get? id = s.jobs.inFlight.get? id) : s'.Served id r := by
  unfold Served JobBoard.isRunningFor
  rw [hsettings, hviewport, hinFlight]
  exact h

namespace Apart

/-- Writing a row leaves the other equations alone. -/
theorem updateRow (s : Scene) (id : Nat) (f : Row → Row) : Apart id s (s.updateRow id f) where
  settings := rfl
  viewport := rfl
  isInteracting := rfl
  rows _ hi := Keyed.get?_modify_of_ne s.rows f hi
  inFlight _ _ := rfl

/-- So does asking for a pass. -/
theorem requestFine (s : Scene) (id : Nat) (eq : Equation) : Apart id s (s.requestFine id eq) := by
  unfold Scene.requestFine
  split
  · exact ⟨rfl, rfl, rfl, fun _ _ => rfl, fun _ _ => rfl⟩
  · refine ⟨rfl, rfl, rfl, fun _ _ => rfl, fun i hi => ?_⟩
    exact (JobBoard.get?_inFlight_spawn _ _ _ _ _ _).trans (if_neg hi)

end Apart

/-- After a fine pass was asked for, it is under way, unless the view moves. A view with an
undefined number in it would not be known again. -/
theorem isRunningFor_requestFine (hview : (s.viewport == s.viewport) = true) (id : Nat)
    (eq : Equation) (hrest : s.isInteracting = false) :
    (s.requestFine id eq).jobs.isRunningFor id s.viewport = true := by
  unfold Scene.requestFine
  rw [hrest, Bool.false_or]
  split
  · -- the pass that is awaited is for this view already
    next hrunning => exact hrunning
  · -- the new pass is the one that is awaited
    have hnew := JobBoard.get?_inFlight_spawn s.jobs id id eq s.viewport s.settings
    rw [if_pos rfl] at hnew
    exact JobBoard.isRunningFor_iff.mpr ⟨_, hnew, hview⟩

/-- **Excuses are taken back one by one** where bringing an equation up to date takes its own
excuse back. -/
theorem foldl_refreshEquation_of {P : (Nat → Prop) → Scene → Prop}
    (hmono : ∀ {E E' : Nat → Prop} {s : Scene}, P E s → (∀ i, E i → E' i) → P E' s)
    (hstep : ∀ {E : Nat → Prop} {s : Scene}, P E s → ∀ id,
      P (fun i => E i ∧ i ≠ id) (s.refreshEquation id))
    (h : P excused s) (ids : List Nat) :
    P (fun i => excused i ∧ i ∉ ids) (ids.foldl Scene.refreshEquation s) := by
  induction ids generalizing s excused with
  | nil => exact hmono h fun i hi => ⟨hi, List.not_mem_nil⟩
  | cons id ids ih =>
    refine hmono (ih (hstep h id)) fun i hi => ⟨hi.1.1, fun hmem => ?_⟩
    exact (List.mem_cons.mp hmem).elim hi.1.2 hi.2

namespace Tended

/-- Equations may be excused further. -/
theorem mono (h : s.Tended excused) (hE : ∀ i, excused i → excused' i) : s.Tended excused' where
  tolerance := h.tolerance
  view := h.view
  preview := h.preview
  served hrest i r hr himplicit hi := h.served hrest i r hr himplicit fun hex => hi (hE i hex)

/-- Only the view, the rows and the awaited passes matter. -/
theorem congr (h : s.Tended excused) (hsettings : s'.settings = s.settings)
    (hviewport : s'.viewport = s.viewport) (hrest : s'.isInteracting = s.isInteracting)
    (hrows : s'.rows = s.rows) (hinFlight : s'.jobs.inFlight = s.jobs.inFlight) :
    s'.Tended excused where
  tolerance := by
    rw [hsettings]
    exact h.tolerance
  view := by
    rw [hviewport]
    exact h.view
  preview i x hx := by
    rw [hrows]
    exact h.preview i x (hinFlight ▸ hx)
  served hr i r hget himplicit hi := by
    rw [hrest] at hr
    rw [hrows] at hget
    refine (h.served hr i r hget himplicit hi).congr hsettings hviewport ?_
    rw [hinFlight]

/-- When everything is excused, the view may be another one. -/
theorem look (h : s.Tended excused) (hsettings : s'.settings = s.settings)
    (hview : s'.viewport.Regular) (hrows : s'.rows = s.rows) (hjobs : s'.jobs = s.jobs) :
    s'.Tended fun _ => True where
  tolerance := by
    rw [hsettings]
    exact h.tolerance
  view := hview
  preview i x hx := by
    rw [hrows]
    exact h.preview i x (hjobs ▸ hx)
  served _ _ _ _ _ hi := absurd trivial hi

/-- While the view moves, no equation need be served. -/
theorem of_interacting (h : s.Tended excused) (hmoves : s.isInteracting = true) :
    s.Tended excused' where
  tolerance := h.tolerance
  view := h.view
  preview := h.preview
  served hrest := by
    rw [hmoves] at hrest
    cases hrest

/-- **What an operation on one equation has to show.** Either a preview stays or nothing
is awaited, and the equation is served if it is not excused. -/
theorem step (h : s.Tended excused) (ha : Apart id s s')
    (hE : ∀ i, i ≠ id → excused i → excused' i)
    (hpreview : ∀ x, s'.jobs.inFlight.get? id = some x →
      ∃ r c, s'.rows.get? id = some r ∧ r.contour = some c ∧ c.quality = .preview)
    (hserved : s.isInteracting = false → ∀ r, s'.rows.get? id = some r →
      r.equation.isImplicit = true → ¬ excused' id → s'.Served id r) : s'.Tended excused' where
  tolerance := by
    rw [ha.settings]
    exact h.tolerance
  view := by
    rw [ha.viewport]
    exact h.view
  preview i x hx := by
    by_cases hi : i = id
    · subst hi
      exact hpreview x hx
    · -- another equation, of which nothing has changed
      rw [ha.inFlight i hi] at hx
      rw [ha.rows i hi]
      exact h.preview i x hx
  served hrest i r hr himplicit hex := by
    rw [ha.isInteracting] at hrest
    by_cases hi : i = id
    · subst hi
      exact hserved hrest r hr himplicit hex
    · rw [ha.rows i hi] at hr
      have hold := h.served hrest i r hr himplicit fun he => hex (hE i hi he)
      exact hold.congr ha.settings ha.viewport (ha.inFlight i hi)

/-- **An excuse is taken back** when the equation turns out to be served. -/
theorem settle (h : s.Tended excused) (id : Nat)
    (hserved : s.isInteracting = false → ∀ r, s.rows.get? id = some r →
      r.equation.isImplicit = true → s.Served id r) :
    s.Tended fun i => excused i ∧ i ≠ id where
  tolerance := h.tolerance
  view := h.view
  preview := h.preview
  served hrest i r hr himplicit hi := by
    by_cases hid : i = id
    · subst hid
      exact hserved hrest r hr himplicit
    · exact h.served hrest i r hr himplicit fun hex => hi ⟨hex, hid⟩

/-! ### Writing one row -/

/-- A row may change anything but its contour and the kind of its equation. -/
theorem updateRow (h : s.Tended excused) (id : Nat) {f : Row → Row}
    (hf : ∀ r, s.rows.get? id = some r →
      (f r).contour = r.contour ∧ (f r).equation.isImplicit = r.equation.isImplicit) :
    (s.updateRow id f).Tended excused := by
  have hget : (s.updateRow id f).rows.get? id = (s.rows.get? id).map f :=
    Keyed.get?_modify_self s.rows id f
  refine h.step (.updateRow s id f) (fun _ _ he => he) (fun x hx => ?_)
    fun hrest r hr himplicit hex => ?_
  · -- the row is there as before, with the same contour
    obtain ⟨r, c, hr, hc, hquality⟩ := h.preview id x hx
    exact ⟨f r, c, by rw [hget, hr]; rfl, (hf r hr).1.trans hc, hquality⟩
  · rw [hget] at hr
    obtain ⟨old, hold, rfl⟩ := Option.map_eq_some_iff.mp hr
    obtain ⟨hcontour, hkind⟩ := hf old hold
    have hserved := h.served hrest id old hold (hkind.symm.trans himplicit) hex
    unfold Served
    rw [hcontour]
    exact hserved

/-- Tracing a preview upsets the equation at most. -/
theorem putPreview (h : s.Tended excused) (id : Nat) (c : Contour Float)
    (hc : c.quality = .preview) :
    (s.updateRow id fun r => { r with contour := some c }).Tended
      fun i => excused i ∨ i = id := by
  refine h.step (.updateRow s id _) (fun _ _ he => .inl he) (fun x hx => ?_)
    fun _ r hr himplicit hex => absurd (.inr rfl) hex
  -- what is awaited had a row, and that keeps the new preview
  obtain ⟨r, -, hr, -, -⟩ := h.preview id x hx
  refine ⟨{ r with contour := some c }, c, ?_, rfl, hc⟩
  rw [Scene.updateRow, Keyed.get?_modify_self, hr]
  rfl

/-- **A row may be rewritten altogether when its pass is called off.** -/
theorem rewrite (h : s.Tended excused) (id : Nat) (rows : Keyed Nat Row)
    (hother : ∀ i, i ≠ id → rows.get? i = s.rows.get? i) :
    Tended (fun i => excused i ∨ i = id) { s with rows := rows, jobs := s.jobs.cancel id } := by
  have hcancel : ∀ i, (s.jobs.cancel id).inFlight.get? i =
      if i = id then none else s.jobs.inFlight.get? i := JobBoard.get?_inFlight_cancel s.jobs id
  have ha : Apart id s { s with rows := rows, jobs := s.jobs.cancel id } :=
    ⟨rfl, rfl, rfl, hother, fun i hi => (hcancel i).trans (if_neg hi)⟩
  refine h.step ha (fun _ _ he => .inl he) (fun x hx => ?_)
    fun _ r hr himplicit hex => absurd (.inr rfl) hex
  -- nothing is awaited for the equation any more
  have hnone : none = some x := ((hcancel id).trans (if_pos rfl)).symm.trans hx
  cases hnone

/-! ### Bringing up to date -/

/-- Landmarks are not traced. -/
theorem refreshDerived (h : s.Tended excused) : s.refreshDerived.Tended excused :=
  h.congr rfl rfl rfl rfl rfl

/-- **A preview under the current view is enough** to ask for a fine pass. -/
theorem requestFine (h : s.Tended excused) {id : Nat} {c : Contour Float} (eq : Equation)
    (hr : s.rows.get? id = some r) (hcontour : r.contour = some c) (hc : c.quality = .preview)
    (hreusable : c.isReusable s.viewport 0.0 = true) :
    (s.requestFine id eq).Tended fun i => excused i ∧ i ≠ id := by
  have ha := Apart.requestFine s id eq
  have hrows : (s.requestFine id eq).rows = s.rows := by
    unfold Scene.requestFine
    split <;> rfl
  refine h.step ha (fun i hi he => ⟨he, hi⟩) (fun x hx => ?_) fun hrest r' hr' _ _ => .inr ?_
  · exact ⟨r, c, by rw [hrows, hr], hcontour, hc⟩
  · rw [hrows, hr] at hr'
    obtain rfl := Option.some.inj hr'
    rw [ha.viewport]
    exact ⟨isRunningFor_requestFine h.view.beq_self id eq hrest, c, hcontour, hc, hreusable⟩

/-- **What stands in for a fine contour is a preview under the current view.** A fine
contour that was traced under this very view would have served. -/
theorem standIn (h : s.Tended excused) {r : Row} (hfine : s.hasFine r = false) :
    (s.standIn r).quality = .preview ∧ (s.standIn r).isReusable s.viewport 0.0 = true := by
  unfold Scene.standIn
  split
  · next c hc =>
    -- the old contour was traced under this view
    obtain ⟨hc, hreusable⟩ := Option.filter_eq_some_iff.mp hc
    refine ⟨?_, hreusable⟩
    cases hquality : c.quality with
    | preview => rfl
    | fine =>
      have hserves := Contour.isReusable_of_zero h.view h.tolerance hreusable
      have hhas : s.hasFine r = true := by
        unfold Scene.hasFine
        rw [hc, Option.any_some, isFine_iff.mpr hquality, hserves]
        rfl
      rw [hfine] at hhas
      cases hhas
  · exact ⟨rfl, Contour.isReusable_self h.view.isFinite rfl⟩

/-- **Bringing an equation up to date serves it.** -/
theorem refreshEquation (h : s.Tended excused) (id : Nat) :
    (s.refreshEquation id).Tended fun i => excused i ∧ i ≠ id := by
  unfold Scene.refreshEquation
  cases hr : s.rows.get? id with
  | none =>
    -- there is no such equation, so nothing is to be served
    refine h.settle id fun _ r hr' => ?_
    rw [hr] at hr'
    cases hr'
  | some r =>
    -- the strip of a graph, whichever way the graph was found
    have hgraph : r.equation.isImplicit = false → (s.updateRow id fun r' => { r' with
        strip := some (refreshedStrip s.settings s.viewport r.equation r.strip) }).Tended
          fun i => excused i ∧ i ≠ id := by
      intro hkind
      have hkept : (s.updateRow id fun r' => { r' with
          strip := some (refreshedStrip s.settings s.viewport r.equation r.strip) }).Tended
            excused := h.updateRow id fun _ _ => ⟨rfl, rfl⟩
      refine hkept.settle id fun _ r' hr' himplicit => ?_
      rw [Scene.updateRow, Keyed.get?_modify_self, hr] at hr'
      obtain rfl := Option.some.inj hr'
      exact absurd (hkind.symm.trans himplicit) Bool.false_ne_true
    cases hclass : r.equation.classification with
    | point x y =>
      simp only [hclass]
      refine h.settle id fun _ r' hr' himplicit => ?_
      obtain rfl : r = r' := Option.some.inj (hr.symm.trans hr')
      rw [Equation.isImplicit, hclass] at himplicit
      cases himplicit
    | explicit =>
      simp only [hclass]
      exact hgraph (by rw [Equation.isImplicit, hclass]; rfl)
    | linearInY =>
      simp only [hclass]
      exact hgraph (by rw [Equation.isImplicit, hclass]; rfl)
    | implicit =>
      simp only [hclass]
      split
      · next hfine =>
        -- a fine contour serves already
        refine h.settle id fun _ r' hr' _ => .inl ?_
        obtain rfl : r = r' := Option.some.inj (hr.symm.trans hr')
        obtain ⟨c, hc, hboth⟩ := (Option.any_eq_true _ _).mp hfine
        obtain ⟨hquality, hserves⟩ := Bool.and_eq_true_iff.mp hboth
        exact ⟨c, hc, isFine_iff.mp hquality, hserves⟩
      · next hfine =>
        -- a preview is put into the row, and its pass is asked for
        obtain ⟨hquality, hreusable⟩ := h.standIn (Bool.eq_false_iff.mpr hfine)
        have hput := h.putPreview id (s.standIn r) hquality
        refine (hput.requestFine (r := { r with contour := some (s.standIn r) }) r.equation ?_ rfl
          hquality hreusable).mono fun i hi => ⟨hi.1.resolve_right hi.2, hi.2⟩
        rw [Scene.updateRow, Keyed.get?_modify_self, hr]
        rfl

theorem foldl_refreshEquation (h : s.Tended excused) (ids : List Nat) :
    (ids.foldl Scene.refreshEquation s).Tended fun i => excused i ∧ i ∉ ids :=
  foldl_refreshEquation_of (P := fun E s => s.Tended E) mono (fun h id => h.refreshEquation id) h ids

end Tended

/-! ### What a refresh leaves alone -/

/-- Only what is kept and awaited has changed. -/
structure Refreshed (s s' : Scene) : Prop where
  /-- The same part of the plane is seen. -/
  viewport : s'.viewport = s.viewport
  /-- The view moves in both or in none. -/
  isInteracting : s'.isInteracting = s.isInteracting
  /-- The same refreshes wait. -/
  refreshes : s'.refreshes = s.refreshes
  /-- The equations have the same numbers. -/
  keys : s'.rows.keys = s.rows.keys
  /-- Every equation is the one that had its number. -/
  equation : ∀ i r, s'.rows.get? i = some r →
    ∃ old, s.rows.get? i = some old ∧ r.equation = old.equation

namespace Refreshed

variable {s'' : Scene}

theorem refl (s : Scene) : Refreshed s s := ⟨rfl, rfl, rfl, rfl, fun _ r hr => ⟨r, hr, rfl⟩⟩

theorem trans (h : Refreshed s s') (h' : Refreshed s' s'') : Refreshed s s'' where
  viewport := h'.viewport.trans h.viewport
  isInteracting := h'.isInteracting.trans h.isInteracting
  refreshes := h'.refreshes.trans h.refreshes
  keys := h'.keys.trans h.keys
  equation i r hr := by
    -- an equation that is there was there before, and once more before
    obtain ⟨mid, hmid, heq⟩ := h'.equation i r hr
    obtain ⟨old, hold, heq'⟩ := h.equation i mid hmid
    exact ⟨old, hold, heq.trans heq'⟩

theorem updateRow (s : Scene) (id : Nat) {f : Row → Row} (hf : ∀ r, (f r).equation = r.equation) :
    Refreshed s (s.updateRow id f) where
  viewport := rfl
  isInteracting := rfl
  refreshes := rfl
  keys := Keyed.keys_modify s.rows id f
  equation i r hr := by
    by_cases hi : i = id
    · subst hi
      rw [Scene.updateRow, Keyed.get?_modify_self] at hr
      obtain ⟨old, hold, rfl⟩ := Option.map_eq_some_iff.mp hr
      exact ⟨old, hold, hf old⟩
    · rw [Scene.updateRow, Keyed.get?_modify_of_ne s.rows f hi] at hr
      exact ⟨r, hr, rfl⟩

theorem requestFine (s : Scene) (id : Nat) (eq : Equation) : Refreshed s (s.requestFine id eq) := by
  unfold Scene.requestFine
  split
  · exact .refl s
  · exact ⟨rfl, rfl, rfl, rfl, fun _ r hr => ⟨r, hr, rfl⟩⟩

theorem refreshEquation (s : Scene) (id : Nat) : Refreshed s (s.refreshEquation id) := by
  unfold Scene.refreshEquation
  split
  · exact .refl s
  · next r hr =>
    split
    · exact .refl s
    · exact .updateRow s id fun _ => rfl
    · exact .updateRow s id fun _ => rfl
    · split
      · exact .refl s
      · -- the row first, and then the pass
        have hput : Refreshed s (s.updateRow id fun r' => { r' with
            contour := some (s.standIn r) }) := .updateRow s id fun _ => rfl
        exact hput.trans (.requestFine _ id _)

theorem foldl_refreshEquation (s : Scene) (ids : List Nat) :
    Refreshed s (ids.foldl Scene.refreshEquation s) := by
  induction ids generalizing s with
  | nil => exact .refl s
  | cons id ids ih => exact (refreshEquation s id).trans (ih _)

theorem refreshDerived (h : Refreshed s s') : Refreshed s s'.refreshDerived :=
  ⟨h.viewport, h.isInteracting, h.refreshes, h.keys, h.equation⟩

theorem refreshAll (s : Scene) : Refreshed s s.refreshAll :=
  (foldl_refreshEquation s s.rows.keys).refreshDerived

/-- A row that is refreshed keeps its equation. -/
theorem exists_row {id : Nat} {r : Row} (h : Refreshed s s') (hr : s.rows.get? id = some r) :
    ∃ r', s'.rows.get? id = some r' ∧ r'.equation = r.equation := by
  have hmem : id ∈ s'.rows.keys := by
    rw [h.keys]
    exact Keyed.mem_keys.mpr ⟨r, hr⟩
  obtain ⟨r', hr'⟩ := Keyed.mem_keys.mp hmem
  obtain ⟨old, hold, heq⟩ := h.equation id r' hr'
  rw [hr, Option.some_inj] at hold
  exact ⟨r', hr', heq.trans (congrArg Row.equation hold.symm)⟩

end Refreshed

/-- **A refresh of all equations leaves none unserved.** -/
theorem Tended.refreshAll (h : s.Tended excused) : s.refreshAll.Tended excused' := by
  -- all equations are excused at first, and none of those that were refreshed at last
  have hfolded := h.foldl_refreshEquation s.rows.keys
  have hsame := Refreshed.foldl_refreshEquation s s.rows.keys
  refine Tended.refreshDerived
    { hfolded with served := fun hrest i r hr himplicit _ => ?_ }
  refine hfolded.served hrest i r hr himplicit fun hex => hex.2 ?_
  rw [← hsame.keys]
  exact Keyed.mem_keys.mpr ⟨r, hr⟩

end CurvePlot.Scene
