import CurvePlot.Proofs.Scene.Operations
import CurvePlot.Proofs.Scene.Run
/-!
# The texts of a scene

Most of what happens to a scene touches neither a text nor an edit that waits:
everything is redrawn, traced, sampled, pinned or moved, and the equations read as
before. `SameTexts` says so, and `SameTexts.act` proves it of every action that is not
among `Action.Writes`.
-/

namespace CurvePlot

/-- An equation remembers the text that it was compiled from. -/
theorem Equation.raw_compile (text : String) (probe : Float) :
    (Equation.compile text probe).raw = text := by
  unfold Equation.compile
  split
  · rfl
  · split
    · rfl
    · next form _ =>
      unfold Equation.ofForm
      dsimp only
      split <;> rfl

namespace Scene

/-- The text of an equation. -/
def text? (s : Scene) (id : Nat) : Option String := (s.rows.get? id).map (·.equation.raw)

/-- **The scenes read the same,** now and when the edits that wait have come. -/
structure SameTexts (s s' : Scene) : Prop where
  /-- The texts of the equations are the same. -/
  text : ∀ id, s'.text? id = s.text? id
  /-- The same edits wait until the same moments. -/
  edits : s'.edits = s.edits
  /-- They bring the same texts. -/
  pendingText : s'.pendingText = s.pendingText
  /-- The next equation gets the same number. -/
  nextId : s'.nextId = s.nextId

namespace SameTexts

variable {s s' s'' : Scene}

/-- A scene reads as itself. -/
theorem refl (s : Scene) : SameTexts s s := ⟨fun _ => rfl, rfl, rfl, rfl⟩

/-- What reads the same twice reads the same. -/
theorem trans (h : SameTexts s s') (h' : SameTexts s' s'') : SameTexts s s'' where
  text id := (h'.text id).trans (h.text id)
  edits := h'.edits.trans h.edits
  pendingText := h'.pendingText.trans h.pendingText
  nextId := h'.nextId.trans h.nextId

/-- Nothing is written as long as the rows stay. -/
theorem of_rows (hrows : s'.rows = s.rows) (hedits : s'.edits = s.edits)
    (hpending : s'.pendingText = s.pendingText) (hnext : s'.nextId = s.nextId) :
    SameTexts s s' where
  text id := by rw [text?, text?, hrows]
  edits := hedits
  pendingText := hpending
  nextId := hnext

/-- A row may be rewritten as long as its text stays. -/
theorem updateRow (s : Scene) (i : Nat) {f : Row → Row}
    (hf : ∀ r, (f r).equation.raw = r.equation.raw) : SameTexts s (s.updateRow i f) where
  text id := by
    rw [text?, text?, Scene.updateRow, Keyed.get?_modify]
    -- the text of another equation is the text of another row
    split
    · rw [Option.map_map]
      exact congrArg (fun g => (s.rows.get? id).map g) (funext hf)
    · rfl
  edits := rfl
  pendingText := rfl
  nextId := rfl

/-- Rows of steps that write nothing write nothing. -/
theorem foldl {α : Type} {step : Scene → α → Scene} (hstep : ∀ s a, SameTexts s (step s a))
    (s : Scene) (items : List α) : SameTexts s (items.foldl step s) := by
  induction items generalizing s with
  | nil => exact .refl s
  | cons a items ih => exact (hstep s a).trans (ih (step s a))

/-! ### Redrawing -/

/-- What is derived is no text. -/
theorem refreshDerived (s : Scene) : SameTexts s s.refreshDerived := .of_rows rfl rfl rfl rfl

/-- Asking for a pass writes into the board only. -/
theorem requestFine (s : Scene) (i : Nat) (eq : Equation) : SameTexts s (s.requestFine i eq) := by
  unfold Scene.requestFine
  split
  · exact .refl s
  · exact .of_rows rfl rfl rfl rfl

/-- **Bringing an equation up to date** writes its row, and not its text. -/
theorem refreshEquation (s : Scene) (i : Nat) : SameTexts s (s.refreshEquation i) := by
  unfold Scene.refreshEquation
  split
  · -- there is no such equation
    exact .refl s
  · split
    · -- a point has nothing to keep
      exact .refl s
    · exact updateRow s i fun _ => rfl
    · exact updateRow s i fun _ => rfl
    · split
      · exact .refl s
      · -- a contour is put into the row before the pass begins
        refine .trans ?_ (requestFine _ i _)
        exact updateRow s i fun _ => rfl

/-- Redrawing everything writes no text. -/
theorem refreshAll (s : Scene) : SameTexts s s.refreshAll :=
  (foldl refreshEquation s s.rows.keys).trans (refreshDerived _)

/-- Tracing a contour keeps it in the row. -/
theorem contour (s : Scene) (i : Nat) : SameTexts s (s.contour i).1 := by
  unfold Scene.contour
  split
  · exact .refl s
  · split
    · exact .refl s
    · exact updateRow s i fun _ => rfl

/-- What a pass found is put into the row of its equation. -/
theorem installOne (state : Scene × Bool) (f : Finished) :
    SameTexts state.1 (installOne state f).1 := by
  unfold Scene.installOne
  split
  · exact updateRow state.1 f.id fun _ => rfl
  · exact .refl state.1

/-- Receiving a pass writes no text. -/
theorem receive (s : Scene) : SameTexts s s.receive := by
  have hboard : SameTexts s { s with jobs := s.jobs.receive.1 } := .of_rows rfl rfl rfl rfl
  unfold Scene.receive
  cases s.jobs.receive.2 with
  | none => exact hboard
  | some f => exact hboard.trans (installOne (_, false) f)

/-- A pass that ends is told to the board. -/
theorem finish (s : Scene) (ticket : Nat) (left : Option (List (Segment Float))) :
    SameTexts s (s.finish ticket left) := by
  unfold Scene.finish
  split
  · exact .of_rows rfl rfl rfl rfl
  · exact .refl s

/-- The refreshes that are due write no text. -/
theorem applyRefreshes (s : Scene) (now : Nat) : SameTexts s (s.applyRefreshes now).1 := by
  have hdue : SameTexts s { s with refreshes := s.refreshes.deliver now } := .of_rows rfl rfl rfl rfl
  unfold Scene.applyRefreshes
  dsimp only
  split
  · -- none is due
    exact hdue
  · exact (hdue.trans (foldl refreshEquation _ _)).trans (refreshDerived _)

/-- A view that settles is redrawn. -/
theorem applyScroll (s : Scene) (now : Nat) : SameTexts s (s.applyScroll now).1 := by
  unfold Scene.applyScroll
  split
  · refine .trans ?_ (refreshAll { s with scrollSettlesAt := none })
    exact of_rows rfl rfl rfl rfl
  · exact .refl s

/-! ### Everything else that is not written -/

/-- A color is no text. -/
theorem setColor {i : Nat} {color : Color} (h : s.setColor i color = .ok s') :
    SameTexts s s' := by
  rw [setColor_eq_ok h]
  exact updateRow s i fun _ => rfl

/-- A slider moves within the row. -/
theorem setParameter {i : Nat} {name : Char} {value : Float} {now : Nat}
    (h : s.setParameter i name value now = .ok s') : SameTexts s s' := by
  obtain ⟨-, parameters, -, -, rfl⟩ := setParameter_eq_ok h
  let moved (r : Row) : Row :=
    Row.evict { r with equation := { r.equation with parameters := parameters } }
  have hmoved : SameTexts s (s.updateRow i moved) := updateRow s i fun _ => rfl
  exact hmoved.trans (.of_rows rfl rfl rfl rfl)

/-- So does its range. -/
theorem setParameterRange {i : Nat} {name : Char} {min max : Float}
    (h : s.setParameterRange i name min max = .ok s') : SameTexts s s' := by
  obtain ⟨-, -, -, -, -, -, rfl⟩ := setParameterRange_eq_ok h
  exact updateRow s i fun _ => rfl

/-- Pins are no texts. -/
theorem togglePin (s : Scene) (x y : Float) : SameTexts s (s.togglePin x y).1 := by
  unfold Scene.togglePin
  dsimp only
  split <;> exact .of_rows rfl rfl rfl rfl

/-- A click pins, or does nothing. -/
theorem click (s : Scene) (px py : Float) : SameTexts s (s.click px py).1 := by
  unfold Scene.click
  split
  · exact .refl s
  · exact togglePin s _ _

end SameTexts

/-- The actions that write texts or edits. -/
def Action.Writes : Action → Prop
  | .add _ | .addColored _ _ | .remove _ | .setText _ _ | .editText _ _ _ | .clear
  | .loadSheet _ | .applyEdits _ => True
  | _ => False

/-- **All other actions leave every text and every edit that waits alone.** -/
theorem SameTexts.act (s : Scene) {a : Action} (ha : ¬ a.Writes) : SameTexts s (s.act a) := by
  -- whatever moves the view writes nothing, and then redraws
  have hview : ∀ s' : Scene, s'.rows = s.rows → s'.edits = s.edits →
      s'.pendingText = s.pendingText → s'.nextId = s.nextId → SameTexts s s'.refreshAll :=
    fun s' hr he hp hn => (of_rows hr he hp hn).trans (refreshAll s')
  cases a with
  | add | addColored | remove | setText | editText | clear | loadSheet | applyEdits =>
    exact absurd trivial ha
  | setColor id color => exact after_of (.refl s) fun _ h => setColor h
  | setParameter id name value now => exact after_of (.refl s) fun _ h => setParameter h
  | setParameterRange id name min max => exact after_of (.refl s) fun _ h => setParameterRange h
  | beginDrag => exact .of_rows rfl rfl rfl rfl
  | endDrag => exact hview _ rfl rfl rfl rfl
  | pan dx dy =>
    -- while it is dragged, a view moves without being redrawn
    rw [Scene.act, pan]
    split
    · exact .of_rows rfl rfl rfl rfl
    · exact hview _ rfl rfl rfl rfl
  | zoomAt px py inward now => exact .of_rows rfl rfl rfl rfl
  | zoom inward => exact hview _ rfl rfl rfl rfl
  | resetView => exact hview _ rfl rfl rfl rfl
  | setView camera => exact hview _ rfl rfl rfl rfl
  | resize width height => exact hview _ rfl rfl rfl rfl
  | refreshEquation id => exact refreshEquation s id
  | refreshAll => exact refreshAll s
  | contour id => exact contour s id
  | snapshot => exact foldl contour s s.rows.keys
  | togglePin x y => exact togglePin s x y
  | click px py => exact click s px py
  | clearPins => exact .of_rows rfl rfl rfl rfl
  | applyRefreshes now => exact applyRefreshes s now
  | applyScroll now => exact applyScroll s now
  | receive => exact receive s
  | finish ticket left => exact finish s ticket left

/-! ### What writing does -/

variable {s s' : Scene} {id : Nat} {text : String}

/-- Adding an equation puts its text under the next number. -/
theorem addColored_sameTexts (s : Scene) (text : String) (color : Color) :
    ∃ row, row.equation.raw = text ∧
      SameTexts { s with rows := s.rows.insert s.nextId row, nextId := s.nextId + 1 }
        (s.addColored text color) :=
  ⟨Row.fresh (s.compile text) color, Equation.raw_compile text s.settings.linearProbe,
    (SameTexts.refreshEquation _ s.nextId).trans (SameTexts.refreshDerived _)⟩

/-- An equation that is added without a color gets the next one of the palette. -/
theorem add_sameTexts (s : Scene) (text : String) :
    ∃ row, row.equation.raw = text ∧
      SameTexts { s with rows := s.rows.insert s.nextId row, nextId := s.nextId + 1 }
        (s.add text) := by
  obtain ⟨row, hraw, hsame⟩ :=
    addColored_sameTexts { s with palette := s.palette.advance } text s.palette.upcoming
  -- the palette is no text
  refine ⟨row, hraw, .trans ?_ hsame⟩
  exact .of_rows rfl rfl rfl rfl

/-- Removing an equation removes the edit that waits for it. -/
theorem remove_sameTexts (h : s.remove id = .ok s') :
    SameTexts { s with
      rows := s.rows.erase id
      edits := s.edits.cancel id
      pendingText := s.pendingText.erase id } s' := by
  obtain ⟨-, rfl⟩ := remove_eq_ok h
  exact .of_rows rfl rfl rfl rfl

/-- **Setting a text writes the equation and leaves the edit that waits for it.** A blank
text removes both. -/
theorem setText_cases (h : s.setText id text = .ok s') :
    (Blank text ∧ s.remove id = .ok s') ∨
    (¬ Blank text ∧ ∃ row, row.equation.raw = text ∧
      SameTexts { s with rows := s.rows.insert id row } s') := by
  -- the rows are not refreshed until the row is written
  refine (setText_eq_ok h).imp_right fun ⟨hblank, r, hr, hs⟩ => ⟨hblank, ?_⟩
  -- the sliders are taken over from the old equation, the text is not
  refine ⟨r.retyped (s.compile text), Equation.raw_compile text s.settings.linearProbe, ?_⟩
  rw [hs]
  refine .trans ?_ ((SameTexts.refreshEquation _ id).trans (SameTexts.refreshDerived _))
  exact .of_rows rfl rfl rfl rfl

/-- A text that is typed waits. -/
theorem editText_sameTexts {now : Nat} (h : s.editText id text now = .ok s') :
    s' = { s with
      pendingText := s.pendingText.insert id text
      edits := s.edits.schedule id now } := by
  exact (editText_eq_ok h).2

/-- A text is typed only for an equation. -/
theorem row_ne_none_of_editText {now : Nat} (h : s.editText id text now = .ok s') :
    s.rows.get? id ≠ none := by
  obtain ⟨⟨r, hr⟩, -⟩ := editText_eq_ok h
  rw [hr]
  exact Option.some_ne_none r

/-- A text is set only for an equation. -/
theorem row_ne_none_of_setText (h : s.setText id text = .ok s') : s.rows.get? id ≠ none := by
  obtain ⟨r, hr⟩ : ∃ r, s.rows.get? id = some r := by
    rcases setText_eq_ok h with ⟨-, hremove⟩ | ⟨-, r, hr, -⟩
    · exact (remove_eq_ok hremove).1
    · exact ⟨r, hr⟩
  rw [hr]
  exact Option.some_ne_none r

end Scene

end CurvePlot
