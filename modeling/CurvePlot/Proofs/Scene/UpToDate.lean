import CurvePlot.Proofs.Scene.Derived
/-!
# Scenes that are up to date

To refresh a scene twice is to refresh it once: the second refresh finds nothing to do
(`refreshAll_idempotent`). It writes no row, traces nothing, calls no pass off and gives out no
ticket.

What a refresh of an equation looks at is its row, the view and the pass that is awaited for it.
`UpToDate` says that it finds these as it would leave them:

* a graph keeps the strip that a refresh would make of it, which is `Row.Steady`;
* an implicit curve keeps a fine contour that serves, or it keeps what stands in for one, and the
  fine pass under this very view is awaited, or has to wait for the view to rest.

A refresh brings its equation there (`upToDate_refreshEquation`), whichever way it takes, and the
refreshes of the other equations leave it there, since they are `Apart`. The crux is that whatever
it leaves is recognised again, for which the view has to be finite: a contour that was traced under
a view with an infinite span is not even good for that view, and a view with an undefined number is
never the one that the pass is awaited for.

Passes may end in between. Their results lie on the board until a poll takes them, and a refresh
does not look at them.
-/

namespace CurvePlot

namespace Scene

variable {s s' : Scene} {id : Nat} {r : Row}

/-- Landmarks that would be found now are not found anew. -/
theorem refreshDerived_eq_self (h : s.Derived) : s.refreshDerived = s := by
  show { s with
    intercepts := s.refreshDerived.intercepts
    intersections := s.refreshDerived.intersections } = s
  rw [← h.1, ← h.2]

/-! ### What a refresh finds -/

/-- **A refresh of the equation would leave everything as it is.** -/
structure UpToDate (s : Scene) (id : Nat) (r : Row) : Prop where
  graph : r.Steady s.settings s.viewport
  traced : r.equation.isImplicit = true → s.hasFine r = true ∨
    (r.contour = some (s.standIn r) ∧
      (s.isInteracting = true ∨ s.jobs.isRunningFor id s.viewport = true))

/-- **The refresh finds nothing to do.** -/
theorem UpToDate.refreshEquation_eq_self (h : s.UpToDate id r) (hr : s.rows.get? id = some r) :
    s.refreshEquation id = s := by
  have hgraph (hexplicit : r.equation.isExplicit = true) : s.updateRow id (fun r' =>
      { r' with strip := some (refreshedStrip s.settings s.viewport r.equation r.strip) }) = s := by
    refine updateRow_eq_self fun r' hr' => ?_
    rw [← h.graph hexplicit, Option.some.inj (hr.symm.trans hr')]
  unfold refreshEquation
  rw [hr]
  cases hclass : r.equation.classification with
  | point x y =>
    simp only [hclass]
  | explicit | linearInY =>
    simp only [hclass]
    exact hgraph (by rw [Equation.isExplicit, hclass]; rfl)
  | implicit =>
    simp only [hclass]
    split
    · rfl
    · next hfine =>
      obtain ⟨hcontour, hasked⟩ :=
        (h.traced (by rw [Equation.isImplicit, hclass]; rfl)).resolve_left hfine
      have hrow : s.updateRow id (fun r' => { r' with contour := some (s.standIn r) }) = s := by
        refine updateRow_eq_self fun r' hr' => ?_
        rw [← hcontour, Option.some.inj (hr.symm.trans hr')]
      rw [hrow]
      -- the pass is not asked for twice
      unfold requestFine
      exact if_pos (Bool.or_eq_true_iff.mpr hasked)

/-- It is a matter of the row, the view and the pass that is awaited. -/
theorem UpToDate.congr (h : s.UpToDate id r) (hsettings : s'.settings = s.settings)
    (hviewport : s'.viewport = s.viewport) (hmoves : s'.isInteracting = s.isInteracting)
    (hinFlight : s'.jobs.inFlight.get? id = s.jobs.inFlight.get? id) : s'.UpToDate id r where
  graph := by
    rw [hsettings, hviewport]
    exact h.graph
  traced himplicit := by
    have htraced := h.traced himplicit
    unfold hasFine standIn JobBoard.isRunningFor at htraced ⊢
    rw [hsettings, hviewport, hmoves, hinFlight]
    exact htraced

/-! ### What a refresh leaves -/

/-- Nothing but the strip is kept of what is not traced. -/
theorem UpToDate.of_steady (himplicit : r.equation.isImplicit = false)
    (h : r.Steady s.settings s.viewport) : s.UpToDate id r where
  graph := h
  traced htrue := absurd (himplicit.symm.trans htrue) Bool.false_ne_true

/-- And no strip of what is. -/
theorem UpToDate.of_traced (himplicit : r.equation.isImplicit = true)
    (h : s.hasFine r = true ∨ (r.contour = some (s.standIn r) ∧
      (s.isInteracting = true ∨ s.jobs.isRunningFor id s.viewport = true))) :
    s.UpToDate id r where
  graph hexplicit := by
    rw [Equation.isImplicit_of_isExplicit hexplicit] at himplicit
    cases himplicit
  traced _ := h

/-- The row that a refresh of an implicit curve leaves, if no fine contour serves. -/
def traced (s : Scene) (r : Row) : Row := { r with contour := some (s.standIn r) }

/-- **What stands in under a finite view stands in again.** -/
theorem standIn_traced (hview : s.viewport.IsFinite) (r : Row) :
    s.standIn (s.traced r) = s.standIn r := by
  have hserves : (s.standIn r).isReusable s.viewport 0.0 = true := by
    unfold standIn
    split
    · next c hc => exact (Option.filter_eq_some_iff.mp hc).2
    · exact Contour.isReusable_self hview rfl
  have hfilter : (s.traced r).contour.filter (fun c => c.isReusable s.viewport 0.0) =
      some (s.standIn r) :=
    Option.filter_eq_some_iff.mpr ⟨rfl, hserves⟩
  unfold standIn at hfilter ⊢
  rw [hfilter]

/-- **After a fine pass was asked for, it is not asked for again.** It is under way, or the view
moves. -/
theorem upToDate_requestFine (hview : s.viewport.IsFinite)
    (himplicit : r.equation.isImplicit = true) (hcontour : r.contour = some (s.standIn r)) :
    (s.requestFine id r.equation).UpToDate id r := by
  obtain ⟨jobs, hjobs⟩ := requestFine_eq s id r.equation
  refine .of_traced himplicit (.inr ⟨?_, ?_⟩)
  · rw [hjobs]
    exact hcontour
  · cases hrest : s.isInteracting with
    | true =>
      left
      rw [hjobs]
      exact hrest
    | false =>
      right
      have hrunning := isRunningFor_requestFine hview.beq_self id r.equation hrest
      rw [hjobs] at hrunning ⊢
      exact hrunning

/-- A strip that was just made would be made again as it is. -/
theorem upToDate_updateRow (hold : s.rows.get? id = some r)
    (himplicit : r.equation.isImplicit = false)
    {r' : Row} (hr' : (s.updateRow id fun q => { q with
      strip := some (refreshedStrip s.settings s.viewport r.equation r.strip) }).rows.get? id =
        some r') :
    (s.updateRow id fun q => { q with
      strip := some (refreshedStrip s.settings s.viewport r.equation r.strip) }).UpToDate id r' := by
  rw [updateRow, Keyed.get?_modify_self, hold, Option.map_some] at hr'
  obtain rfl := Option.some.inj hr'
  refine .of_steady himplicit ?_
  intro _
  rw [updateRow, refreshedStrip_refreshedStrip]

/-- **A refresh brings its equation up to date,** whichever way it takes. -/
theorem upToDate_refreshEquation (hview : s.viewport.IsFinite)
    (hr : (s.refreshEquation id).rows.get? id = some r) :
    (s.refreshEquation id).UpToDate id r := by
  cases hold : s.rows.get? id with
  | none =>
    rw [refreshEquation_of_none hold, hold] at hr
    cases hr
  | some old =>
    unfold refreshEquation at hr ⊢
    rw [hold] at hr ⊢
    have hkind : old.equation.isImplicit = old.equation.classification.isImplicit := rfl
    cases hclass : old.equation.classification with
    | point x y =>
      simp only [hclass] at hr hkind ⊢
      obtain rfl : old = r := Option.some.inj (hold.symm.trans hr)
      refine .of_steady hkind ?_
      intro hexplicit
      rw [Equation.isExplicit, hclass] at hexplicit
      cases hexplicit
    | explicit | linearInY =>
      simp only [hclass] at hr hkind ⊢
      exact upToDate_updateRow hold hkind hr
    | implicit =>
      simp only [hclass] at hr hkind ⊢
      cases hfine : s.hasFine old with
      | true =>
        rw [hfine] at hr
        rw [if_pos rfl] at hr ⊢
        obtain rfl : old = r := Option.some.inj (hold.symm.trans hr)
        exact .of_traced hkind (.inl hfine)
      | false =>
        rw [hfine] at hr
        rw [if_neg Bool.false_ne_true] at hr ⊢
        let put : Scene := s.updateRow id fun q => { q with contour := some (s.standIn old) }
        obtain ⟨jobs, hjobs⟩ := requestFine_eq put id old.equation
        rw [show (put.requestFine id old.equation).rows = put.rows by rw [hjobs]] at hr
        have hrow : put.rows.get? id = some (s.traced old) := by
          show (s.rows.modify id _).get? id = _
          rw [Keyed.get?_modify_self, hold]
          rfl
        obtain rfl : s.traced old = r := Option.some.inj (hrow.symm.trans hr)
        exact upToDate_requestFine (s := put) (r := s.traced old) hview hkind
          (congrArg some (standIn_traced hview old).symm)

/-! ### The other equations -/

namespace Apart

theorem refl (id : Nat) (s : Scene) : Apart id s s :=
  ⟨rfl, rfl, rfl, fun _ _ => rfl, fun _ _ => rfl⟩

theorem trans {s'' : Scene} (h : Apart id s s') (h' : Apart id s' s'') : Apart id s s'' where
  settings := h'.settings.trans h.settings
  viewport := h'.viewport.trans h.viewport
  isInteracting := h'.isInteracting.trans h.isInteracting
  rows i hi := (h'.rows i hi).trans (h.rows i hi)
  inFlight i hi := (h'.inFlight i hi).trans (h.inFlight i hi)

/-- **To bring one equation up to date concerns this equation only.** -/
theorem refreshEquation (s : Scene) (id : Nat) : Apart id s (s.refreshEquation id) := by
  unfold Scene.refreshEquation
  split
  · exact .refl id s
  · next r hr =>
    split
    · exact .refl id s
    · exact .updateRow s id _
    · exact .updateRow s id _
    · split
      · exact .refl id s
      · exact (Apart.updateRow s id _).trans (.requestFine _ id _)

end Apart

/-- **All equations are up to date** but for those that are excused, under a finite view. -/
structure AllUpToDate (excused : Nat → Prop) (s : Scene) : Prop where
  view : s.viewport.IsFinite
  row : ∀ i r, s.rows.get? i = some r → ¬excused i → s.UpToDate i r

namespace AllUpToDate

variable {excused excused' : Nat → Prop}

theorem mono (h : s.AllUpToDate excused) (hE : ∀ i, excused i → excused' i) :
    s.AllUpToDate excused' where
  view := h.view
  row i r hr hi := h.row i r hr fun hex => hi (hE i hex)

/-- A refresh takes back the excuse of its equation, and upsets no other. -/
theorem refreshEquation (h : s.AllUpToDate excused) (id : Nat) :
    (s.refreshEquation id).AllUpToDate fun i => excused i ∧ i ≠ id := by
  have hapart := Apart.refreshEquation s id
  constructor
  · rw [hapart.viewport]
    exact h.view
  · intro i r hr hi
    by_cases hid : i = id
    · subst hid
      exact upToDate_refreshEquation h.view hr
    · rw [hapart.rows i hid] at hr
      refine (h.row i r hr fun hex => hi ⟨hex, hid⟩).congr hapart.settings hapart.viewport
        hapart.isInteracting (hapart.inFlight i hid)

/-- **A refresh of all equations leaves none behind.** -/
theorem refreshAll (hview : s.viewport.IsFinite) : s.refreshAll.AllUpToDate fun _ => False := by
  have hstart : s.AllUpToDate fun _ => True := ⟨hview, fun _ _ _ hi => absurd trivial hi⟩
  have hfolded := foldl_refreshEquation_of (P := fun E s => s.AllUpToDate E) mono
    (fun h id => h.refreshEquation id) hstart s.rows.keys
  have hsame := Refreshed.foldl_refreshEquation s s.rows.keys
  constructor
  · exact hfolded.view
  · intro i r hr _
    have hmem : i ∈ s.rows.keys := by
      rw [← hsame.keys]
      exact Keyed.mem_keys.mpr ⟨r, hr⟩
    -- landmarks are nothing that a refresh of an equation looks at
    exact (hfolded.row i r hr fun hex => hex.2 hmem).congr rfl rfl rfl rfl

/-- Where all is up to date, refreshes of equations do nothing. -/
theorem refreshEquation_eq_self (h : s.AllUpToDate fun _ => False) (id : Nat) :
    s.refreshEquation id = s := by
  cases hr : s.rows.get? id with
  | none => exact refreshEquation_of_none hr
  | some r => exact (h.row id r hr not_false).refreshEquation_eq_self hr

/-- **Nor does a refresh of all,** where the landmarks were found. -/
theorem refreshAll_eq_self (h : s.AllUpToDate fun _ => False) (hderived : s.Derived) :
    s.refreshAll = s := by
  have hequations (ids : List Nat) : ids.foldl Scene.refreshEquation s = s := by
    induction ids with
    | nil => rfl
    | cons id ids ih =>
      rw [List.foldl_cons, h.refreshEquation_eq_self]
      exact ih
  unfold Scene.refreshAll
  rw [hequations]
  exact refreshDerived_eq_self hderived

/-- A pass that ends is awaited as long as its result was not taken. -/
theorem finish (h : s.AllUpToDate excused) (ticket : Nat) (left : Option (List (Segment Float))) :
    (s.finish ticket left).AllUpToDate excused := by
  unfold Scene.finish
  split
  · exact ⟨h.view, fun i r hr hi => (h.row i r hr hi).congr rfl rfl rfl rfl⟩
  · exact h

end AllUpToDate

theorem Derived.finish (h : s.Derived) (ticket : Nat) (left : Option (List (Segment Float))) :
    (s.finish ticket left).Derived := by
  unfold Scene.finish
  split
  · exact h
  · exact h

/-- **To refresh twice is to refresh once,** under a finite view. The second refresh changes
nothing at all, hence it gives out no ticket and calls no pass off; and this is so too if passes
have ended in between. -/
theorem refreshAll_idempotent (s : Scene) (hview : s.viewport.IsFinite) :
    s.refreshAll.refreshAll = s.refreshAll ∧
    ∀ ends : List (Nat × Option (List (Segment Float))),
      let t := s.refreshAll.run (ends.map fun e => .finish e.1 e.2)
      t.refreshAll = t := by
  have hfirst := AllUpToDate.refreshAll hview
  have hderived : s.refreshAll.Derived := derived_refreshDerived _
  constructor
  · exact hfirst.refreshAll_eq_self hderived
  · intro ends
    -- the passes end one by one, and nothing of what a refresh looks at changes
    generalize s.refreshAll = t at hfirst hderived
    induction ends generalizing t with
    | nil => exact hfirst.refreshAll_eq_self hderived
    | cons e ends ih => exact ih (t.finish e.1 e.2) (hfirst.finish e.1 e.2) (hderived.finish e.1 e.2)

/-- A window of 800 by 600 with a line and a parabola in it. -/
theorem refreshAll_idempotent_parabola :
    let s := ((Scene.new .standard 800.0 600.0).add "y=a*x").add "y*y=x"
    s.viewport.IsFinite ∧ s.refreshAll.refreshAll = s.refreshAll ∧
      ∀ ends : List (Nat × Option (List (Segment Float))),
        let t := s.refreshAll.run (ends.map fun e => .finish e.1 e.2)
        t.refreshAll = t := by
  intro s
  have hadd (s : Scene) (text : String) : (s.add text).viewport = s.viewport :=
    (Refreshed.refreshEquation _ s.nextId).refreshDerived.viewport
  have hstart : (Scene.new .standard 800.0 600.0).viewport.Regular := by decide +kernel
  have hview : s.viewport.IsFinite := by
    rw [show s.viewport = (Scene.new .standard 800.0 600.0).viewport from
      (hadd _ _).trans (hadd _ _)]
    exact hstart.isFinite
  exact ⟨hview, refreshAll_idempotent s hview⟩

end Scene

end CurvePlot
