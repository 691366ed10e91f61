import CurvePlot.Proofs.Keyed
import CurvePlot.Proofs.Scene.Derived
/-!
# What is traced decides nothing else

The sketch of a scene is all of it but the contours that are kept and the fine passes. No
action looks at a contour or at a pass to decide about anything else: scenes with the same
sketch have the same sketch after the same action (`SameSketch.act`). And the end of a pass,
the taking of a result and the tracing of a preview do not touch the sketch at all
(`SameSketch.of_isTracing`), so they may be left out of a run (`SameSketch.run`). When a
pass ends is a matter of chance, but what is seen in the sketch does not depend on it.

Landmarks are found on graphs, and graphs are part of the sketch (`SameSketch.graphs`).
-/

namespace CurvePlot

namespace Row

/-- The row without its contour. -/
def sketch (r : Row) : Row := { r with contour := none }

variable {r r' : Row}

/-- The sketch tells the equation of a row, -/
theorem equation_of_sketch (h : r'.sketch = r.sketch) : r'.equation = r.equation :=
  (Row.mk.inj h).1

/-- its color -/
theorem color_of_sketch (h : r'.sketch = r.sketch) : r'.color = r.color := (Row.mk.inj h).2.1

/-- and its strip. -/
theorem strip_of_sketch (h : r'.sketch = r.sketch) : r'.strip = r.strip := (Row.mk.inj h).2.2.1

end Row

namespace Scene

/-- The rows are the same but for their contours. -/
def SameRows (m n : Keyed Nat Row) : Prop :=
  ∀ i, (n.get? i).map Row.sketch = (m.get? i).map Row.sketch

namespace SameRows

variable {m n : Keyed Nat Row}

/-- **Either both have the row, and with one sketch, or none has it.** -/
theorem cases (h : SameRows m n) (id : Nat) : (m.get? id = none ∧ n.get? id = none) ∨
    ∃ r r', m.get? id = some r ∧ n.get? id = some r' ∧ r'.sketch = r.sketch := by
  have hid := h id
  cases hr : m.get? id with
  | none =>
    rw [hr] at hid
    exact .inl ⟨rfl, Option.map_eq_none_iff.mp hid⟩
  | some r =>
    rw [hr] at hid
    obtain ⟨r', hr', hsketch⟩ := Option.map_eq_some_iff.mp hid
    exact .inr ⟨r, r', rfl, hr', hsketch⟩

/-- Rows stay the same when rows with one sketch are put into both, -/
theorem insert (h : SameRows m n) (id : Nat) {r r' : Row} (hr : r'.sketch = r.sketch) :
    SameRows (m.insert id r) (n.insert id r') := by
  intro i
  rw [Keyed.get?_insert, Keyed.get?_insert]
  split
  · exact congrArg some hr
  · exact h i

/-- when one is taken out of both -/
theorem erase (h : SameRows m n) (id : Nat) : SameRows (m.erase id) (n.erase id) := by
  intro i
  rw [Keyed.get?_erase, Keyed.get?_erase]
  split
  · rfl
  · exact h i

/-- and when one is changed in both, if the change takes one sketch to one sketch. -/
theorem modify (h : SameRows m n) (id : Nat) {f g : Row → Row}
    (hfg : ∀ r r' : Row, r'.sketch = r.sketch → (g r').sketch = (f r).sketch) :
    SameRows (m.modify id f) (n.modify id g) := by
  intro i
  by_cases hi : i = id
  · subst hi
    rw [Keyed.get?_modify_self, Keyed.get?_modify_self]
    rcases h.cases i with ⟨hm, hn⟩ | ⟨r, r', hm, hn, hsketch⟩
    · rw [hm, hn]
      rfl
    · rw [hm, hn]
      exact congrArg some (hfg r r' hsketch)
  · -- the other rows are left alone
    rw [Keyed.get?_modify_of_ne _ _ hi, Keyed.get?_modify_of_ne _ _ hi]
    exact h i

/-- Of a row that is changed in one of them only, nothing but the contour is. -/
theorem modify_self (m : Keyed Nat Row) (id : Nat) {f : Row → Row}
    (hf : ∀ r, (f r).sketch = r.sketch) : SameRows m (m.modify id f) := by
  intro i
  rw [Keyed.get?_modify]
  split
  · rw [Option.map_map]
    exact congrArg (fun g => (m.get? i).map g) (funext hf)
  · rfl

/-- The same rows have the same sketches -/
theorem sketches (h : SameRows m n) :
    n.mapValues (fun _ => Row.sketch) = m.mapValues fun _ => Row.sketch := by
  refine Keyed.ext_get? fun i => ?_
  rw [Keyed.get?_mapValues, Keyed.get?_mapValues]
  exact h i

/-- and the same numbers. -/
theorem keys (h : SameRows m n) : n.keys = m.keys := by
  rw [← Keyed.keys_mapValues (fun _ => Row.sketch), h.sketches, Keyed.keys_mapValues]

/-- What is gathered from sketches is the same. -/
theorem filterMap_values {α : Type} (h : SameRows m n) {g : Row → Option α}
    (hg : ∀ r : Row, g r.sketch = g r) : n.values.filterMap g = m.values.filterMap g := by
  -- what does not look at the contour can as well be gathered from the sketches
  have hvalues (k : Keyed Nat Row) : k.values.filterMap g =
      (k.mapValues fun _ => Row.sketch).values.filterMap g := by
    simp only [Keyed.values, Keyed.mapValues, List.map_map, List.filterMap_map]
    exact List.filterMap_congr fun e _ => (hg e.2).symm
  rw [hvalues n, hvalues m, h.sketches]

end SameRows

/-- **The scenes are the same** but for their contours and fine passes. -/
def SameSketch (s t : Scene) : Prop :=
  ∃ rows jobs, t = { s with rows := rows, jobs := jobs } ∧ SameRows s.rows rows

namespace SameSketch

variable {s t u : Scene} {id : Nat}

/-- The rows that look the same make scenes that do. -/
theorem of_rows {rows : Keyed Nat Row} (h : SameRows s.rows rows) (jobs : JobBoard) :
    SameSketch s { s with rows := rows, jobs := jobs } := ⟨rows, jobs, rfl, h⟩

/-- A scene has its own sketch. -/
theorem refl (s : Scene) : SameSketch s s := ⟨s.rows, s.jobs, rfl, fun _ => rfl⟩

/-- Scenes that look the same look the same from both sides, -/
theorem symm (h : SameSketch s t) : SameSketch t s := by
  obtain ⟨rows, jobs, rfl, hrows⟩ := h
  exact ⟨s.rows, s.jobs, rfl, fun i => (hrows i).symm⟩

/-- and along a row of scenes. -/
theorem trans (h : SameSketch s t) (h' : SameSketch t u) : SameSketch s u := by
  obtain ⟨rows, jobs, rfl, hrows⟩ := h
  obtain ⟨rows', jobs', rfl, hrows'⟩ := h'
  exact ⟨rows', jobs', rfl, fun i => (hrows' i).trans (hrows i)⟩

/-- Their rows are the same. -/
theorem rows (h : SameSketch s t) : SameRows s.rows t.rows := by
  obtain ⟨rows, jobs, rfl, hrows⟩ := h
  exact hrows

/-- Something else may be changed in both scenes. -/
theorem change (h : SameSketch s t) (f : Scene → Scene) (hrows : (f s).rows = s.rows)
    (hf : ∀ rows jobs, f { s with rows := rows, jobs := jobs } =
      { f s with rows := rows, jobs := jobs }) : SameSketch (f s) (f t) := by
  obtain ⟨rows, jobs, rfl, hsame⟩ := h
  exact ⟨rows, jobs, hf rows jobs, hrows ▸ hsame⟩

/-- Whether the user interacts can be seen in the sketch. -/
theorem isInteracting (h : SameSketch s t) : t.isInteracting = s.isInteracting := by
  obtain ⟨rows, jobs, rfl, -⟩ := h
  rfl

/-- So can the graphs. -/
theorem graphs (h : SameSketch s t) : t.graphs = s.graphs := h.rows.filterMap_values fun _ => rfl

/-! ### Bringing up to date -/

/-- The landmarks come from the graphs, so they are brought up to date alike. -/
theorem refreshDerived (h : SameSketch s t) : SameSketch s.refreshDerived t.refreshDerived := by
  have hgraphs := h.graphs
  obtain ⟨rows, jobs, rfl, hrows⟩ := h
  -- the graphs are those of the other scene, so whatever is found on them is the same
  have hintercepts : (Scene.refreshDerived { s with rows := rows, jobs := jobs }).intercepts =
      s.refreshDerived.intercepts := by
    rw [intercepts_refreshDerived, intercepts_refreshDerived, hgraphs]
  have hintersections :
      (Scene.refreshDerived { s with rows := rows, jobs := jobs }).intersections =
        s.refreshDerived.intersections := by
    rw [intersections_refreshDerived, intersections_refreshDerived, hgraphs]
  refine ⟨rows, jobs, ?_, hrows⟩
  calc Scene.refreshDerived { s with rows := rows, jobs := jobs }
      = { s with
          rows := rows
          jobs := jobs
          intercepts := (Scene.refreshDerived { s with rows := rows, jobs := jobs }).intercepts
          intersections :=
            (Scene.refreshDerived { s with rows := rows, jobs := jobs }).intersections } := rfl
    _ = { s.refreshDerived with rows := rows, jobs := jobs } := by
        rw [hintercepts, hintersections]
        rfl

/-- A request for a fine pass does not show in the sketch. -/
theorem requestFine (s : Scene) (id : Nat) (eq : Equation) : SameSketch s (s.requestFine id eq) := by
  obtain ⟨jobs, hjobs⟩ := requestFine_eq s id eq
  rw [hjobs]
  exact .of_rows (fun _ => rfl) jobs

/-- A row may be changed in both scenes alike, -/
theorem updateRow (h : SameSketch s t) (id : Nat) {f g : Row → Row}
    (hfg : ∀ r r' : Row, r'.sketch = r.sketch → (g r').sketch = (f r).sketch) :
    SameSketch (s.updateRow id f) (t.updateRow id g) := by
  obtain ⟨rows, jobs, rfl, hrows⟩ := h
  exact ⟨_, jobs, rfl, hrows.modify id hfg⟩

/-- and in one scene only, if the contour is all that is changed. -/
theorem updateRow_self (s : Scene) (id : Nat) {f : Row → Row} (hf : ∀ r, (f r).sketch = r.sketch) :
    SameSketch s (s.updateRow id f) :=
  .of_rows (.modify_self s.rows id hf) s.jobs

/-- To refresh an implicit curve is to see about its contour. -/
theorem refreshEquation_implicit {r : Row} (hr : s.rows.get? id = some r)
    (hclass : r.equation.classification = .implicit) : SameSketch s (s.refreshEquation id) := by
  unfold Scene.refreshEquation
  rw [hr]
  simp only [hclass]
  split
  · -- the contour still serves
    exact refl s
  · -- it is dropped, and a pass is asked for
    refine .trans ?_ (requestFine _ id _)
    exact updateRow_self s id fun _ => rfl

/-- **Whether an equation is refreshed, and how, does not depend on what is traced.** -/
theorem refreshEquation (h : SameSketch s t) (id : Nat) :
    SameSketch (s.refreshEquation id) (t.refreshEquation id) := by
  rcases h.rows.cases id with ⟨hs, ht⟩ | ⟨r, r', hs, ht, hsketch⟩
  · rw [refreshEquation_of_none hs, refreshEquation_of_none ht]
    exact h
  have hequation := Row.equation_of_sketch hsketch
  have hstrip := Row.strip_of_sketch hsketch
  cases hclass : r.equation.classification with
  | implicit =>
    -- the two may do different things here, but neither of them shows in the sketch
    have hs' := refreshEquation_implicit hs hclass
    have ht' := refreshEquation_implicit ht (hequation ▸ hclass)
    exact hs'.symm.trans (h.trans ht')
  | point x y =>
    -- there is nothing to refresh
    unfold Scene.refreshEquation
    rw [hs, ht]
    simp only [hequation, hclass]
    exact h
  | explicit | linearInY =>
    -- the strip depends on the old strip and the equation, which both are in the sketch
    unfold Scene.refreshEquation
    rw [hs, ht]
    simp only [hequation, hclass, hstrip]
    obtain ⟨rows, jobs, rfl, hrows⟩ := h
    refine ⟨_, jobs, rfl, hrows.modify id fun q q' hq => ?_⟩
    unfold Row.sketch
    rw [Row.equation_of_sketch hq, Row.color_of_sketch hq]

/-- Row after row is refreshed alike. -/
theorem foldl_refreshEquation (h : SameSketch s t) (ids : List Nat) :
    SameSketch (ids.foldl Scene.refreshEquation s) (ids.foldl Scene.refreshEquation t) := by
  induction ids generalizing s t with
  | nil => exact h
  | cons id ids ih => exact ih (h.refreshEquation id)

/-- Bringing everything up to date does the same in both. -/
theorem refreshAll (h : SameSketch s t) : SameSketch s.refreshAll t.refreshAll := by
  unfold Scene.refreshAll
  rw [h.rows.keys]
  exact (h.foldl_refreshEquation s.rows.keys).refreshDerived

/-! ### Editing -/

/-- A new row gets the same number in both scenes. -/
theorem addColored (h : SameSketch s t) (text : String) (color : Color) :
    SameSketch (s.addColored text color) (t.addColored text color) := by
  obtain ⟨rows, jobs, rfl, hrows⟩ := h
  refine SameSketch.refreshDerived (SameSketch.refreshEquation ?_ s.nextId)
  exact ⟨_, jobs, rfl, hrows.insert s.nextId rfl⟩

/-- A new row gets the same color in both scenes. -/
theorem add (h : SameSketch s t) (text : String) : SameSketch (s.add text) (t.add text) := by
  obtain ⟨rows, jobs, rfl, hrows⟩ := h
  exact addColored (s := { s with palette := s.palette.advance }) ⟨rows, jobs, rfl, hrows⟩ text
    s.palette.upcoming

/-- Of two cleared scenes nothing is left to be seen but what is the same. -/
theorem clear (h : SameSketch s t) : SameSketch s.clear t.clear := by
  obtain ⟨rows, jobs, rfl, -⟩ := h
  exact ⟨_, jobs.cancelAll, rfl, fun _ => rfl⟩

/-- A sheet is read into both scenes alike. -/
theorem loadSheet (h : SameSketch s t) (sheet : String) :
    SameSketch (s.loadSheet sheet).1 (t.loadSheet sheet).1 := by
  unfold Scene.loadSheet
  have hcleared := h.clear
  generalize s.clear = s', t.clear = t' at hcleared ⊢
  induction Sheet.read sheet generalizing s' t' with
  | nil => exact hcleared
  | cons text texts ih => exact ih _ _ (hcleared.add text)

/-- **An operation is refused in both scenes, or in none.** -/
def SameOutcome : Except SceneError Scene → Except SceneError Scene → Prop
  | .error e, .error e' => e = e'
  | .ok s, .ok t => SameSketch s t
  | _, _ => False

/-- What is refused leaves both as they are. -/
theorem after (h : SameSketch s t) {outcome outcome' : Except SceneError Scene}
    (hsame : SameOutcome outcome outcome') : SameSketch (s.after outcome) (t.after outcome') := by
  cases outcome with
  | error e =>
    cases outcome' with
    | error e' => exact h
    | ok t' => exact hsame.elim
  | ok s' =>
    cases outcome' with
    | error e' => exact hsame.elim
    | ok t' => exact hsame

/-- The row of a number is there in both scenes, or in none. -/
theorem row_cases (h : SameSketch s t) (id : Nat) :
    (∃ e, s.row id = .error e ∧ t.row id = .error e) ∨
      ∃ r r', s.row id = .ok r ∧ t.row id = .ok r' ∧ r'.sketch = r.sketch := by
  unfold row
  rcases h.rows.cases id with ⟨hs, ht⟩ | ⟨r, r', hs, ht, hsketch⟩
  · exact .inl ⟨_, by rw [hs], by rw [ht]⟩
  · exact .inr ⟨r, r', by rw [hs], by rw [ht], hsketch⟩

/-- Removing a row is refused in both scenes or in none, -/
theorem remove (h : SameSketch s t) (id : Nat) : SameOutcome (s.remove id) (t.remove id) := by
  unfold Scene.remove
  rcases h.row_cases id with ⟨e, hs, ht⟩ | ⟨r, r', hs, ht, -⟩
  · rw [hs, ht]
    rfl
  · rw [hs, ht]
    obtain ⟨rows, jobs, rfl, hrows⟩ := h
    exact refreshDerived ⟨_, jobs.cancel id, rfl, hrows.erase id⟩

/-- and so is setting its text, -/
theorem setText (h : SameSketch s t) (id : Nat) (text : String) :
    SameOutcome (s.setText id text) (t.setText id text) := by
  unfold Scene.setText
  split
  · exact h.remove id
  rcases h.row_cases id with ⟨e, hs, ht⟩ | ⟨r, r', hs, ht, hsketch⟩
  · rw [hs, ht]
    rfl
  · rw [hs, ht]
    obtain ⟨rows, jobs, rfl, hrows⟩ := h
    dsimp only [SameOutcome]
    rw [Row.equation_of_sketch hsketch, Row.color_of_sketch hsketch]
    exact refreshDerived (refreshEquation ⟨_, jobs.cancel id, rfl, hrows.insert id rfl⟩ id)

/-- beginning to edit it -/
theorem editText (h : SameSketch s t) (id : Nat) (text : String) (now : Nat) :
    SameOutcome (s.editText id text now) (t.editText id text now) := by
  unfold Scene.editText
  rcases h.row_cases id with ⟨e, hs, ht⟩ | ⟨r, r', hs, ht, -⟩
  · rw [hs, ht]
    rfl
  · rw [hs, ht]
    obtain ⟨rows, jobs, rfl, hrows⟩ := h
    exact ⟨rows, jobs, rfl, hrows⟩

/-- and giving it a color. -/
theorem setColor (h : SameSketch s t) (id : Nat) (color : Color) :
    SameOutcome (s.setColor id color) (t.setColor id color) := by
  unfold Scene.setColor
  rcases h.row_cases id with ⟨e, hs, ht⟩ | ⟨r, r', hs, ht, -⟩
  · rw [hs, ht]
    rfl
  · rw [hs, ht]
    refine h.updateRow id fun q q' hq => ?_
    -- the sketch keeps the equation and the strip, and the color is the new one
    unfold Row.sketch
    rw [Row.equation_of_sketch hq, Row.strip_of_sketch hq]

/-- Moving a slider depends on the equation, and of this both have the same. -/
theorem setParameter (h : SameSketch s t) (id : Nat) (name : Char) (value : Float) (now : Nat) :
    SameOutcome (s.setParameter id name value now) (t.setParameter id name value now) := by
  unfold Scene.setParameter
  rcases h.row_cases id with ⟨e, hs, ht⟩ | ⟨r, r', hs, ht, hsketch⟩
  · rw [hs, ht]
    rfl
  rw [hs, ht]
  dsimp only
  rw [Row.equation_of_sketch hsketch]
  cases r.equation.parameters.set? name value with
  | none => rfl
  | some parameters =>
    obtain ⟨rows, jobs, rfl, hrows⟩ := h
    -- the strip is given up in both, and the contour is no part of the sketch
    refine ⟨_, jobs.cancel id, rfl, hrows.modify id fun q q' hq => ?_⟩
    unfold Row.sketch Row.evict
    rw [Row.equation_of_sketch hq, Row.color_of_sketch hq]

/-- Giving a slider another range depends on the equation too. -/
theorem setParameterRange (h : SameSketch s t) (id : Nat) (name : Char) (min max : Float) :
    SameOutcome (s.setParameterRange id name min max) (t.setParameterRange id name min max) := by
  unfold Scene.setParameterRange
  rcases h.row_cases id with ⟨e, hs, ht⟩ | ⟨r, r', hs, ht, hsketch⟩
  · rw [hs, ht]
    rfl
  rw [hs, ht]
  dsimp only
  rw [Row.equation_of_sketch hsketch]
  cases r.equation.parameters.get? name with
  | none => rfl
  | some p =>
    dsimp only
    cases p.setRange? min max with
    | none => rfl
    | some p =>
      refine h.updateRow id fun q q' hq => ?_
      unfold Row.sketch
      rw [Row.equation_of_sketch hq, Row.color_of_sketch hq, Row.strip_of_sketch hq]

/-! ### Looking and pinning -/

/-- A change of the view is followed by a refresh. -/
theorem look (h : SameSketch s t) (f : Settings Float → Viewport Float → Viewport Float) :
    SameSketch ({ s with viewport := f s.settings s.viewport }.refreshAll)
      ({ t with viewport := f t.settings t.viewport }.refreshAll) :=
  refreshAll <| h.change (fun u => { u with viewport := f u.settings u.viewport }) rfl fun _ _ => rfl

/-- Dragging waits for the end of the drag in both scenes or in none. -/
theorem pan (h : SameSketch s t) (dx dy : Float) : SameSketch (s.pan dx dy) (t.pan dx dy) := by
  have hmoved := h.change (fun u => { u with viewport := u.viewport.pan dx dy }) rfl fun _ _ => rfl
  unfold Scene.pan
  dsimp only
  rw [hmoved.isInteracting]
  split
  · exact hmoved
  · exact hmoved.refreshAll

/-- A preview is traced for one contour. -/
theorem contour (s : Scene) (id : Nat) : SameSketch s (s.contour id).1 := by
  unfold Scene.contour
  split
  · exact refl s
  · split
    · exact refl s
    · exact updateRow_self s id fun _ => rfl

/-- Before a snapshot, contours are traced and nothing else is done. -/
theorem prepared (s : Scene) : SameSketch s s.prepared :=
  List.foldlRecOn s.rows.keys (fun s id => (s.contour id).1) (motive := SameSketch s) (refl s)
    fun t ht id _ => ht.trans (contour t id)

/-- A pin is set or taken away in both scenes. -/
theorem togglePin (h : SameSketch s t) (x y : Float) :
    SameSketch (s.togglePin x y).1 (t.togglePin x y).1 := by
  obtain ⟨rows, jobs, rfl, hrows⟩ := h
  unfold Scene.togglePin
  dsimp only
  split <;> exact ⟨rows, jobs, rfl, hrows⟩

/-- **What lies under the cursor is no contour.** -/
theorem hover (h : SameSketch s t) (px py : Float) : t.hover px py = s.hover px py := by
  -- the explicit rows that answer are the same ones
  have hvalues {α : Type} (g : Row → Option α) (hg : ∀ r : Row, g r.sketch = g r) :
      (t.rows.values.filter fun r => r.equation.isExplicit).filterMap g =
        (s.rows.values.filter fun r => r.equation.isExplicit).filterMap g := by
    rw [List.filterMap_filter, List.filterMap_filter]
    refine h.rows.filterMap_values fun r => ?_
    rw [hg]
    rfl
  obtain ⟨rows, jobs, rfl, hrows⟩ := h
  unfold Scene.hover
  dsimp only
  split
  · rfl
  · rw [hvalues _ fun _ => rfl]

/-- A click hits the same point, so it does the same. -/
theorem click (h : SameSketch s t) (px py : Float) :
    SameSketch (s.click px py).1 (t.click px py).1 := by
  unfold Scene.click
  rw [h.hover]
  split
  · exact h
  · exact h.togglePin _ _

/-! ### The parts of a poll -/

/-- An edit that is due finds its text in both scenes or in none. -/
theorem applyEdit {state state' : Scene × Bool} (h : SameSketch state.1 state'.1) (id : Nat) :
    SameSketch (Scene.applyEdit state id).1 (Scene.applyEdit state' id).1 := by
  have hpending : state'.1.pendingText = state.1.pendingText := by
    obtain ⟨rows, jobs, heq, -⟩ := h
    rw [heq]
  unfold Scene.applyEdit
  rw [hpending]
  split
  · exact h
  · next text _ =>
    have hwaiting : SameSketch
        { state.1 with pendingText := state.1.pendingText.erase id }
        { state'.1 with pendingText := state.1.pendingText.erase id } := by
      obtain ⟨rows, jobs, heq, hrows⟩ := h
      rw [heq]
      exact ⟨rows, jobs, rfl, hrows⟩
    have hset := hwaiting.setText id text
    -- the text has come, whether or not it can be set; that it can in one scene and not in the
    -- other is excluded by the outcomes being the same
    dsimp only
    generalize Scene.setText { state.1 with pendingText := state.1.pendingText.erase id } id text =
      outcome at hset ⊢
    generalize Scene.setText { state'.1 with pendingText := state.1.pendingText.erase id } id text =
      outcome' at hset ⊢
    cases outcome <;> cases outcome' <;> first | exact hwaiting | exact hset | exact hset.elim

/-- The edits that are due are applied one after the other. -/
theorem applyEdits (h : SameSketch s t) (now : Nat) :
    SameSketch (s.applyEdits now).1 (t.applyEdits now).1 := by
  have hfold (ids : List Nat) : ∀ state state' : Scene × Bool, SameSketch state.1 state'.1 →
      SameSketch (ids.foldl Scene.applyEdit state).1 (ids.foldl Scene.applyEdit state').1 := by
    induction ids with
    | nil => exact fun _ _ hstate => hstate
    | cons id ids ih => exact fun _ _ hstate => ih _ _ (applyEdit hstate id)
  obtain ⟨rows, jobs, rfl, hrows⟩ := h
  exact hfold _ _ _ ⟨rows, jobs, rfl, hrows⟩

/-- What is due for a refresh is refreshed in both scenes. -/
theorem applyRefreshes (h : SameSketch s t) (now : Nat) :
    SameSketch (s.applyRefreshes now).1 (t.applyRefreshes now).1 := by
  obtain ⟨rows, jobs, rfl, hrows⟩ := h
  unfold Scene.applyRefreshes
  dsimp only
  split
  · exact ⟨rows, jobs, rfl, hrows⟩
  · refine refreshDerived (foldl_refreshEquation ?_ _)
    exact ⟨rows, jobs, rfl, hrows⟩

/-- A scroll that has rested is followed by a refresh in both. -/
theorem applyScroll (h : SameSketch s t) (now : Nat) :
    SameSketch (s.applyScroll now).1 (t.applyScroll now).1 := by
  obtain ⟨rows, jobs, rfl, hrows⟩ := h
  unfold Scene.applyScroll
  dsimp only
  split
  · exact refreshAll ⟨rows, jobs, rfl, hrows⟩
  · exact ⟨rows, jobs, rfl, hrows⟩

/-- What is handed out becomes a contour, or nothing. -/
theorem installOne (state : Scene × Bool) (f : Finished) :
    SameSketch state.1 (Scene.installOne state f).1 := by
  unfold Scene.installOne
  split
  · exact updateRow_self state.1 f.id fun _ => rfl
  · exact refl state.1

/-- Taking a result does not show in the sketch, -/
theorem receive (s : Scene) : SameSketch s s.receive :=
  List.foldlRecOn s.jobs.receive.2.toList Scene.installOne
    (motive := fun state => SameSketch s state.1) (.of_rows (fun _ => rfl) s.jobs.receive.1)
    fun state hstate f _ => hstate.trans (installOne state f)

/-- nor does the end of a pass. -/
theorem finish (s : Scene) (ticket : Nat) (left : Option (List (Segment Float))) :
    SameSketch s (s.finish ticket left) := by
  unfold Scene.finish
  split
  · exact .of_rows (fun _ => rfl) _
  · exact refl s

/-! ### Every action -/

/-- **Whatever happens, what is traced decides nothing else.** -/
theorem act (h : SameSketch s t) (a : Action) : SameSketch (s.act a) (t.act a) := by
  -- those that trace leave each of the scenes with its own sketch, the others do the same in both
  cases a with
  | add text => exact h.add text
  | addColored text color => exact h.addColored text color
  | remove id => exact h.after (h.remove id)
  | setText id text => exact h.after (h.setText id text)
  | editText id text now => exact h.after (h.editText id text now)
  | clear => exact h.clear
  | loadSheet sheet => exact h.loadSheet sheet
  | setColor id color => exact h.after (h.setColor id color)
  | setParameter id name value now => exact h.after (h.setParameter id name value now)
  | setParameterRange id name min max => exact h.after (h.setParameterRange id name min max)
  | beginDrag => exact h.change beginDrag rfl fun _ _ => rfl
  | endDrag => exact (h.change (fun u => { u with dragging := false }) rfl fun _ _ => rfl).refreshAll
  | pan dx dy => exact h.pan dx dy
  | zoomAt px py inward now => exact h.change (·.zoomAt px py inward now) rfl fun _ _ => rfl
  | zoom inward => exact h.look fun settings v => v.zoom inward settings.zoomFactor
  | resetView => exact h.look fun settings v => v.reset settings.defaultScale
  | setView camera => exact h.look fun _ v => v.look camera
  | resize width height => exact h.look fun _ v => v.resize width height
  | refreshEquation id => exact h.refreshEquation id
  | refreshAll => exact h.refreshAll
  | contour id => exact (contour s id).symm.trans (h.trans (contour t id))
  | snapshot => exact (prepared s).symm.trans (h.trans (prepared t))
  | togglePin x y => exact h.togglePin x y
  | click px py => exact h.click px py
  | clearPins => exact h.change clearPins rfl fun _ _ => rfl
  | applyEdits now => exact h.applyEdits now
  | applyRefreshes now => exact h.applyRefreshes now
  | applyScroll now => exact h.applyScroll now
  | receive => exact (receive s).symm.trans (h.trans (receive t))
  | finish ticket left => exact (finish s ticket left).symm.trans (h.trans (finish t ticket left))

end SameSketch

/-- The actions that have to do with tracing only. -/
def Action.isTracing : Action → Bool
  | .contour _ | .snapshot | .receive | .finish _ _ => true
  | _ => false

namespace SameSketch

variable {s t : Scene}

/-- An action that traces does not show in the sketch. -/
theorem of_isTracing (s : Scene) {a : Action} (ha : a.isTracing = true) : SameSketch s (s.act a) := by
  cases a with
  | contour id => exact contour s id
  | snapshot => exact prepared s
  | receive => exact receive s
  | finish ticket left => exact finish s ticket left
  | _ => cases ha

/-- **Tracing may be left out of a run,** wherever it stands in it. -/
theorem run (h : SameSketch s t) (actions : List Action) :
    SameSketch (s.run actions) (t.run (actions.filter fun a => !a.isTracing)) := by
  induction actions generalizing s t with
  | nil => exact h
  | cons a actions ih =>
    rw [List.filter_cons]
    split
    · exact ih (h.act a)
    · next ha =>
      -- the other scene stays behind, with the same sketch
      refine ih (.trans (symm ?_) h)
      exact of_isTracing s (by simpa using ha)

end SameSketch

end Scene

end CurvePlot
