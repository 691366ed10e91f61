import CurvePlot.Proofs.Samples
import CurvePlot.Proofs.Scene.Texts
/-!
# What is kept ready belongs to the equations as they are

A row keeps a strip of samples or a contour, and while it does, its equation may get
another text and its sliders may move. `Row.Current` says that what the row keeps was
sampled or traced from the equation as it now is.

The danger lies in the fine passes. They trace an equation as it was when they began,
and their results are kept without another look at the equation. So the invariant
`Scene.Current` is about the passes as well:

* every live pass traces what its equation now is (`passes`), so that whatever is
  handed out may be kept;
* every live pass of one chosen equation has at least some ticket (`passes`, `next`).
  If that is the next ticket at the moment at which the equation was written, no pass
  from before that moment is live any more, and so none is ever kept.

A text that is set and a slider that is moved call off the pass of their equation;
this is what `Current.rewrite` rests on.
-/

namespace CurvePlot

/-- The segments are what the pass of the contour's quality finds under its view. -/
def Contour.TracedFrom (field : Float → Float → Float) (settings : Settings Float)
    (c : Contour Float) : Prop :=
  match c.quality with
  | .preview => c.segments = Contour.coarse field c.viewport settings
  | .fine => Contour.fine field c.viewport settings false = some c.segments

/-- **What the row keeps belongs to its equation as it is.** -/
structure Row.Current (settings : Settings Float) (r : Row) : Prop where
  /-- Only graphs are sampled. -/
  strip_explicit : ∀ strip, r.strip = some strip → r.equation.isExplicit = true
  /-- The samples lie on the graph. -/
  strip_accurate : ∀ strip, r.strip = some strip → strip.Accurate r.equation.curve
  /-- Only implicit curves are traced. -/
  contour_implicit : ∀ c, r.contour = some c → r.equation.isImplicit = true
  /-- The contour was traced from the field. -/
  contour_traced : ∀ c, r.contour = some c → c.TracedFrom r.equation.field settings

namespace Row.Current

variable {settings : Settings Float} {r : Row}

/-- Nothing is kept, so nothing is wrong. -/
theorem of_none (hstrip : r.strip = none) (hcontour : r.contour = none) : r.Current settings where
  strip_explicit strip h := by rw [hstrip] at h; cases h
  strip_accurate strip h := by rw [hstrip] at h; cases h
  contour_implicit c h := by rw [hcontour] at h; cases h
  contour_traced c h := by rw [hcontour] at h; cases h

/-- A strip may be put in place, if it was sampled from the curve. -/
theorem setStrip (h : r.Current settings) {strip : Strip Float}
    (hexplicit : r.equation.isExplicit = true) (haccurate : strip.Accurate r.equation.curve) :
    Row.Current settings { r with strip := some strip } where
  strip_explicit _ _ := hexplicit
  strip_accurate _ hs := Option.some.inj hs ▸ haccurate
  contour_implicit := h.contour_implicit
  contour_traced := h.contour_traced

/-- A contour may be put in place, if it was traced from the field. -/
theorem setContour (h : r.Current settings) {c : Contour Float}
    (himplicit : r.equation.isImplicit = true) (htraced : c.TracedFrom r.equation.field settings) :
    Row.Current settings { r with contour := some c } where
  strip_explicit := h.strip_explicit
  strip_accurate := h.strip_accurate
  contour_implicit _ _ := himplicit
  contour_traced _ hc := Option.some.inj hc ▸ htraced

/-- What is kept depends on an equation only through its class, its curve and its field. -/
theorem setEquation (h : r.Current settings) {eq : Equation}
    (hclass : eq.classification = r.equation.classification)
    (hcurve : eq.curve = r.equation.curve) (hfield : eq.field = r.equation.field) :
    Row.Current settings { r with equation := eq } where
  strip_explicit strip hs := by
    rw [Equation.isExplicit, hclass]
    exact h.strip_explicit strip hs
  strip_accurate strip hs := by
    rw [hcurve]
    exact h.strip_accurate strip hs
  contour_implicit c hc := by
    rw [Equation.isImplicit, hclass]
    exact h.contour_implicit c hc
  contour_traced c hc := by
    rw [hfield]
    exact h.contour_traced c hc

end Row.Current

/-! ### Sliders -/

/-- A range leaves the value of its slider. -/
theorem Parameter.value_setRange {p q : Parameter} {min max : Float}
    (h : p.setRange? min max = some q) : q.value = p.value := by
  unfold setRange? at h
  split at h
  · rw [← Option.some.inj h]
  · cases h

/-- A table is the same to an expression if no value changes. -/
theorem Parameter.Table.value_insert {t : Parameter.Table} {name : Char} {p q : Parameter}
    (hp : t.get? name = some p) (hq : q.value = p.value) :
    Parameter.Table.value (t.insert name q) = t.value := by
  funext c
  unfold value
  by_cases hc : c = name
  · -- this is the slider that changed, and its value did not
    subst hc
    rw [Keyed.get?_insert_self, hp]
    exact hq
  · rw [Keyed.get?_insert_of_ne t q hc]

namespace Scene

/-- The pass traces the equation as it is, under the settings of the scene. -/
def Suits (s : Scene) (job : Job) : Prop :=
  job.settings = s.settings ∧ ∃ r, s.rows.get? job.id = some r ∧
    r.equation.isImplicit = true ∧ job.equation.field = r.equation.field

/-- **Everything that is kept or awaited belongs to the equations as they are,** and
the awaited pass of one equation was not begun before a certain ticket. -/
structure Current (id n : Nat) (s : Scene) : Prop where
  /-- What the rows keep belongs to their equations. -/
  row : ∀ i r, s.rows.get? i = some r → r.Current s.settings
  /-- No number is given out twice. -/
  row_lt : ∀ i r, s.rows.get? i = some r → i < s.nextId
  /-- Live passes trace the equations as they are. -/
  passes : s.jobs.LiveAll fun job => s.Suits job ∧ (job.id = id → n ≤ job.ticket)
  /-- Later passes are later. -/
  next : n ≤ s.jobs.nextTicket

namespace Current

variable {id n : Nat} {s s' : Scene}

/-- Nothing is kept at the start, and nothing is awaited. -/
theorem start (settings : Settings Float) (width height : Float) :
    (Scene.new settings width height).Current 0 0 where
  row i r hr := by cases hr
  row_lt i r hr := by cases hr
  passes := .empty
  next := Nat.zero_le _

/-- Only the rows, the passes and the settings matter. -/
theorem congr (h : s.Current id n) (hrows : s'.rows = s.rows) (hjobs : s'.jobs = s.jobs)
    (hsettings : s'.settings = s.settings) (hnext : s'.nextId = s.nextId) : s'.Current id n where
  row i r hr := by
    rw [hsettings]
    exact h.row i r (hrows ▸ hr)
  row_lt i r hr := by
    rw [hnext]
    exact h.row_lt i r (hrows ▸ hr)
  passes := by
    rw [hjobs]
    refine h.passes.mono fun job hj => ⟨?_, hj.2⟩
    rw [Suits, hsettings, hrows]
    exact hj.1
  next := by
    rw [hjobs]
    exact h.next

/-- The ticket may be an earlier one. -/
theorem earlier (h : s.Current id n) {m : Nat} (hm : m ≤ n) : s.Current id m where
  row := h.row
  row_lt := h.row_lt
  passes := h.passes.mono fun _ hj => ⟨hj.1, fun hid => Nat.le_trans hm (hj.2 hid)⟩
  next := Nat.le_trans hm h.next

/-- If no pass of an equation is live, those to come have at least the next ticket. -/
theorem restart (h : s.Current id n) {i : Nat} (hnone : s.jobs.LiveAll fun job =>
    s.Suits job ∧ job.id ≠ i) : s.Current i s.jobs.nextTicket where
  row := h.row
  row_lt := h.row_lt
  passes := hnone.mono fun _ hj => ⟨hj.1, fun hid => absurd hid hj.2⟩
  next := Nat.le_refl _

/-! ### Changing one row -/

/-- A row may change what it keeps as long as this belongs to its equation, and an
implicit equation as long as its field stays. -/
theorem updateRow (h : s.Current id n) (i : Nat) {f : Row → Row}
    (hf : ∀ r, s.rows.get? i = some r → (f r).Current s.settings ∧
      (f r).equation.isImplicit = r.equation.isImplicit ∧
      (f r).equation.field = r.equation.field) : (s.updateRow i f).Current id n := by
  have hget : ∀ j, (s.updateRow i f).rows.get? j =
      if j = i then (s.rows.get? j).map f else s.rows.get? j := by
    intro j
    rw [Scene.updateRow, Keyed.get?_modify]
    rfl
  -- every row comes from an old one with the same number
  have hrow : ∀ j r, (s.updateRow i f).rows.get? j = some r →
      ∃ old, s.rows.get? j = some old ∧ r.Current s.settings := by
    intro j r hr
    rw [hget] at hr
    split at hr
    · next hj =>
      obtain ⟨old, hold, rfl⟩ := Option.map_eq_some_iff.mp hr
      exact ⟨old, hold, (hf old (hj ▸ hold)).1⟩
    · exact ⟨r, hr, h.row j r hr⟩
  refine { row := fun j r hr => ?_, row_lt := fun j r hr => ?_, passes := ?_, next := h.next }
  · obtain ⟨old, -, hcurrent⟩ := hrow j r hr
    exact hcurrent
  · obtain ⟨old, hold, -⟩ := hrow j r hr
    exact h.row_lt j old hold
  · -- the pass of this row traces a field that stays, and other passes trace other rows
    refine h.passes.mono fun job hj => ⟨?_, hj.2⟩
    obtain ⟨hsettings, r, hr, himplicit, hfield⟩ := hj.1
    refine ⟨hsettings, ?_⟩
    by_cases hid : job.id = i
    · obtain ⟨-, himp, hfld⟩ := hf r (hid ▸ hr)
      refine ⟨f r, ?_, himp.trans himplicit, hfield.trans hfld.symm⟩
      rw [hget, if_pos hid, hr]
      rfl
    · refine ⟨r, ?_, himplicit, hfield⟩
      rw [hget, if_neg hid, hr]

/-- **A row may be rewritten altogether when its pass is called off.** No pass of the
equation is live then, so those to come have at least the next ticket. -/
theorem rewrite (h : s.Current id n) (i : Nat) (rows : Keyed Nat Row)
    (hother : ∀ j, j ≠ i → rows.get? j = s.rows.get? j)
    (hnew : ∀ r, rows.get? i = some r → r.Current s.settings ∧ i < s.nextId) :
    let s' := { s with rows := rows, jobs := s.jobs.cancel i }
    s'.Current id n ∧ s'.Current i s.jobs.nextTicket := by
  intro s'
  have hkept : ∀ j r, rows.get? j = some r → r.Current s.settings ∧ j < s.nextId := by
    intro j r hr
    by_cases hj : j = i
    · -- what takes the place of the row is new
      subst hj
      exact hnew r hr
    · rw [hother j hj] at hr
      exact ⟨h.row j r hr, h.row_lt j r hr⟩
  -- what is still live belongs to other equations, whose rows have not changed
  have hlive : s'.jobs.LiveAll fun job =>
      (s'.Suits job ∧ (job.id = id → n ≤ job.ticket)) ∧ job.id ≠ i := by
    refine (h.passes.cancel i).mono fun job hj => ⟨⟨?_, hj.1.2⟩, hj.2⟩
    obtain ⟨⟨⟨hsettings, r, hr, himplicit⟩, -⟩, hid⟩ := hj
    refine ⟨hsettings, r, ?_, himplicit⟩
    rw [← hr]
    exact hother job.id hid
  have hcurrent : s'.Current id n :=
    { row := fun j r hr => (hkept j r hr).1
      row_lt := fun j r hr => (hkept j r hr).2
      passes := hlive.mono fun _ hj => hj.1
      next := by
        rw [JobBoard.nextTicket_cancel]
        exact h.next }
  have hnext : s'.jobs.nextTicket = s.jobs.nextTicket := JobBoard.nextTicket_cancel s.jobs i
  refine ⟨hcurrent, ?_⟩
  rw [← hnext]
  exact hcurrent.restart (hlive.mono fun _ hj => ⟨hj.1.1, hj.2⟩)

/-! ### Bringing up to date -/

/-- What is derived is not kept in rows. -/
theorem refreshDerived (h : s.Current id n) : s.refreshDerived.Current id n :=
  h.congr rfl rfl rfl rfl

/-- A pass may begin for the equation as it is. -/
theorem requestFine (h : s.Current id n) {i : Nat} {r : Row} {eq : Equation}
    (hr : s.rows.get? i = some r) (himplicit : r.equation.isImplicit = true)
    (hfield : eq.field = r.equation.field) : (s.requestFine i eq).Current id n := by
  unfold Scene.requestFine
  -- either a pass for this view is under way, or one begins
  split
  · exact h
  · refine
      { row := h.row
        row_lt := h.row_lt
        passes := (h.passes.spawn i eq s.viewport s.settings).mono fun job hj => ?_
        next := ?_ }
    · -- the new pass has the ticket that was next
      rcases hj with rfl | ⟨hj, -⟩
      · exact ⟨⟨rfl, r, hr, himplicit, hfield⟩, fun _ => h.next⟩
      · exact hj
    · rw [JobBoard.nextTicket_spawn]
      exact Nat.le_succ_of_le h.next

/-- A preview is traced from the field of its equation, without a pass. -/
theorem tracedFrom_previewOf (settings : Settings Float) (view : Viewport Float) (eq : Equation) :
    (previewOf settings view eq).TracedFrom eq.field settings := rfl

/-- What is kept while the fine pass runs belongs to the equation. -/
theorem tracedFrom_standIn (h : s.Current id n) {i : Nat} {r : Row}
    (hr : s.rows.get? i = some r) : (s.standIn r).TracedFrom r.equation.field s.settings := by
  unfold standIn
  split
  · -- an old contour stays as it is
    next c hc => exact (h.row i r hr).contour_traced c (Option.eq_some_of_filter_eq_some hc)
  · exact tracedFrom_previewOf s.settings s.viewport r.equation

/-- **Bringing an equation up to date keeps only what belongs to it.** -/
theorem refreshEquation (h : s.Current id n) (i : Nat) : (s.refreshEquation i).Current id n := by
  unfold Scene.refreshEquation
  cases hr : s.rows.get? i with
  | none => exact h
  | some r =>
    have hrow : r.Current s.settings := h.row i r hr
    -- the strip of a graph, whichever way the graph was found
    have hgraph : r.equation.isExplicit = true → (s.updateRow i fun r' => { r' with
        strip := some (refreshedStrip s.settings s.viewport r.equation r.strip) }).Current id n := by
      intro hexplicit
      refine h.updateRow i fun r' hr' => ?_
      -- the row that is written is the one that was looked up
      obtain rfl : r = r' := Option.some.inj (hr.symm.trans hr')
      have haccurate := accurate_refreshedStrip s.settings s.viewport r.equation
        hrow.strip_accurate
      exact ⟨hrow.setStrip hexplicit haccurate, rfl, rfl⟩
    cases hclass : r.equation.classification with
    | point x y =>
      simp only [hclass]
      exact h
    | explicit =>
      simp only [hclass]
      exact hgraph (by rw [Equation.isExplicit, hclass]; rfl)
    | linearInY =>
      simp only [hclass]
      exact hgraph (by rw [Equation.isExplicit, hclass]; rfl)
    | implicit =>
      simp only [hclass]
      split
      · -- a fine contour still serves
        exact h
      · have himplicit : r.equation.isImplicit = true := by rw [Equation.isImplicit, hclass]; rfl
        have hupdated : (s.updateRow i fun r' => { r' with
            contour := some (s.standIn r) }).Current id n := by
          refine h.updateRow i fun r' hr' => ?_
          obtain rfl : r = r' := Option.some.inj (hr.symm.trans hr')
          exact ⟨hrow.setContour himplicit (h.tracedFrom_standIn hr), rfl, rfl⟩
        -- the contour was put into the row, which left its equation as it was
        refine hupdated.requestFine (r := { r with contour := some (s.standIn r) }) ?_ himplicit rfl
        rw [Scene.updateRow, Keyed.get?_modify_self, hr]
        rfl

/-- What is brought up to date one after the other belongs to the equations throughout. -/
theorem foldl_refreshEquation (h : s.Current id n) (ids : List Nat) :
    (ids.foldl Scene.refreshEquation s).Current id n := by
  induction ids generalizing s with
  | nil => exact h
  | cons i ids ih => exact ih (h.refreshEquation i)

/-- A refresh of all is a row of refreshes. -/
theorem refreshAll (h : s.Current id n) : s.refreshAll.Current id n :=
  (h.foldl_refreshEquation s.rows.keys).refreshDerived

/-! ### Editing -/

/-- **A new equation** gets a number of its own, keeps nothing, and awaits nothing. -/
theorem addColored (h : s.Current id n) (text : String) (color : Color) :
    (s.addColored text color).Current id n := by
  refine Current.refreshDerived (Current.refreshEquation ?_ s.nextId)
  have hget : ∀ j, (s.rows.insert s.nextId (Row.fresh (s.compile text) color)).get? j =
      if s.nextId = j then some (Row.fresh (s.compile text) color) else s.rows.get? j :=
    fun j => Keyed.get?_insert s.rows s.nextId j _
  refine { row := fun j r hr => ?_, row_lt := fun j r hr => ?_, passes := ?_, next := h.next }
  · rw [hget] at hr
    split at hr
    · -- the new row keeps nothing
      rw [← Option.some.inj hr]
      exact .of_none rfl rfl
    · exact h.row j r hr
  · rw [hget] at hr
    split at hr
    · -- its number was the next
      next hj => exact hj ▸ Nat.lt_succ_self _
    · exact Nat.lt_succ_of_lt (h.row_lt j r hr)
  · -- no pass can be live for a number that has not been given out
    refine h.passes.mono fun job hj => ⟨?_, hj.2⟩
    obtain ⟨hsettings, r, hr, himplicit⟩ := hj.1
    have hne : s.nextId ≠ job.id := Nat.ne_of_gt (h.row_lt job.id r hr)
    exact ⟨hsettings, r, by rw [hget, if_neg hne, hr], himplicit⟩

/-- The color of the palette does not matter. -/
theorem add (h : s.Current id n) (text : String) : (s.add text).Current id n := by
  have hpalette : Scene.Current id n { s with palette := s.palette.advance } :=
    h.congr rfl rfl rfl rfl
  exact hpalette.addColored text s.palette.upcoming

/-- **An equation that is removed** takes its pass along. -/
theorem remove (h : s.Current id n) {i : Nat} (hs : s.remove i = .ok s') :
    s'.Current id n ∧ s'.Current i s.jobs.nextTicket := by
  obtain ⟨-, rfl⟩ := remove_eq_ok hs
  have hboth := h.rewrite i (s.rows.erase i)
    (fun j hj => Keyed.get?_erase_of_ne s.rows hj)
    (fun r hr => by rw [Keyed.get?_erase_self] at hr; cases hr)
  exact ⟨hboth.1.congr rfl rfl rfl rfl, hboth.2.congr rfl rfl rfl rfl⟩

/-- **A text that is set** takes along all that was kept or awaited. -/
theorem setText (h : s.Current id n) {i : Nat} {text : String} (hs : s.setText i text = .ok s') :
    s'.Current id n ∧ s'.Current i s.jobs.nextTicket := by
  rcases setText_eq_ok hs with ⟨-, hremove⟩ | ⟨-, r, hr, rfl⟩
  · -- a blank text removes the equation
    exact h.remove hremove
  have hlt : i < s.nextId := h.row_lt i r hr
  -- the new row keeps nothing, so it may be put in place while the pass is called off
  have hboth := h.rewrite i (s.rows.insert i (r.retyped (s.compile text)))
    (fun j hj => Keyed.get?_insert_of_ne s.rows _ hj)
    (fun r' hr' => by
      rw [Keyed.get?_insert_self] at hr'
      obtain rfl := Option.some.inj hr'
      exact ⟨.of_none rfl rfl, hlt⟩)
  refine ⟨?_, ?_⟩
  · -- what is refreshed belongs to the new equation
    refine Current.refreshDerived (Current.refreshEquation ?_ i)
    exact hboth.1.congr rfl rfl rfl rfl
  · refine Current.refreshDerived (Current.refreshEquation ?_ i)
    exact hboth.2.congr rfl rfl rfl rfl

/-- A text that is typed is only noted. -/
theorem editText (h : s.Current id n) {i : Nat} {text : String} {now : Nat}
    (hs : s.editText i text now = .ok s') : s'.Current id n := by
  obtain ⟨-, rfl⟩ := editText_eq_ok hs
  exact h.congr rfl rfl rfl rfl

/-- Without equations nothing is kept, and all passes are called off. -/
theorem clear (h : s.Current id n) : s.clear.Current id n where
  row i r hr := by cases hr
  row_lt i r hr := by cases hr
  passes := h.passes.cancelAll.mono fun _ hj => hj.elim
  next := h.next

/-- Equations may be added one after the other. -/
theorem foldl_add (h : s.Current id n) (texts : List String) :
    (texts.foldl Scene.add s).Current id n := by
  induction texts generalizing s with
  | nil => exact h
  | cons text texts ih => exact ih (h.add text)

/-- A sheet clears the scene and adds its lines. -/
theorem loadSheet (h : s.Current id n) (sheet : String) : (s.loadSheet sheet).1.Current id n :=
  h.clear.foldl_add (Sheet.read sheet)

/-- A color is not traced. -/
theorem setColor (h : s.Current id n) {i : Nat} {color : Color} (hs : s.setColor i color = .ok s') :
    s'.Current id n := by
  rw [setColor_eq_ok hs]
  refine h.updateRow i fun r hr => ⟨?_, rfl, rfl⟩
  have hrow : r.Current s.settings := h.row i r hr
  exact ⟨hrow.strip_explicit, hrow.strip_accurate, hrow.contour_implicit, hrow.contour_traced⟩

/-- **A slider that is moved takes along all that was kept or awaited.** -/
theorem setParameter (h : s.Current id n) {i : Nat} {name : Char} {value : Float} {now : Nat}
    (hs : s.setParameter i name value now = .ok s') :
    s'.Current id n ∧ s'.Current i s.jobs.nextTicket := by
  obtain ⟨r, parameters, hr, -, rfl⟩ := setParameter_eq_ok hs
  have hlt : i < s.nextId := h.row_lt i r hr
  have hboth := h.rewrite i
    (s.rows.modify i fun r =>
      Row.evict { r with equation := { r.equation with parameters := parameters } })
    (fun j hj => Keyed.get?_modify_of_ne s.rows _ hj)
    (fun r' hr' => by
      rw [Keyed.get?_modify_self] at hr'
      obtain ⟨old, -, rfl⟩ := Option.map_eq_some_iff.mp hr'
      exact ⟨.of_none rfl rfl, hlt⟩)
  exact ⟨hboth.1.congr rfl rfl rfl rfl, hboth.2.congr rfl rfl rfl rfl⟩

/-- The range of a slider is not seen by the curve. -/
theorem setParameterRange (h : s.Current id n) {i : Nat} {name : Char} {min max : Float}
    (hs : s.setParameterRange i name min max = .ok s') : s'.Current id n := by
  obtain ⟨r, p, q, hr, hp, hq, rfl⟩ := setParameterRange_eq_ok hs
  refine h.updateRow i fun r' hr' => ?_
  obtain rfl : r = r' := Option.some.inj (hr.symm.trans hr')
  -- curve and field look at the values of the sliders only
  have hvalue := Parameter.Table.value_insert hp (Parameter.value_setRange hq)
  have hcurve : Equation.curve { r.equation with
      parameters := r.equation.parameters.insert name q } = r.equation.curve := by
    funext x
    simp only [Equation.curve, hvalue]
    rfl
  have hfield : Equation.field { r.equation with
      parameters := r.equation.parameters.insert name q } = r.equation.field := by
    funext x y
    simp only [Equation.field, hvalue]
    rfl
  exact ⟨(h.row i r hr).setEquation rfl hcurve hfield, rfl, hfield⟩

end Current

end Scene

end CurvePlot
