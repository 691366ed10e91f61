import CurvePlot.Proofs.Equation.Normal
import CurvePlot.Proofs.Scene.Compiled
import CurvePlot.Proofs.Scene.Derived
/-!
# Saving and loading

What a scene shows after a sheet was loaded is made of the lines of the sheet alone, given
the settings and the view (`rows_loadSheet`): the colors start over, the sliders stand where
sliders start, and of every graph the strip is new. The lines of the sheet that was written
of a scene are the texts of its equations in their normal form (`Sheet.read_write`), and a
text and its normal form compile alike (`Equation.compile_normal`). So loading what was
saved brings back every equation whose text is not blank, and doing it once more changes
nothing (`load_sheet`).
-/

namespace CurvePlot

/-- What sliders do is no matter of being alike. -/
theorem Equation.Alike.of_slid {a b c : Equation} (h : a.Alike c) (hslid : a.Slid b) :
    b.Alike c := by
  -- the values that sliders have are no part of what is compiled
  have hvalid : b.isValid = a.isValid := by
    rw [Equation.isValid, Equation.isValid, hslid.outcome]
  have herror : b.error? = a.error? := by
    rw [Equation.error?, Equation.error?, hslid.outcome]
  have hformula : b.formula = a.formula := by
    rw [Equation.formula, Equation.formula, hslid.outcome]
  have hmath : b.math = a.math := congrArg Formula.math hformula
  have hlimit : b.limit? = a.limit? := congrArg Formula.limit hformula
  exact ⟨h.isValid.trans hvalid.symm, by rw [h.kind, herror],
    h.classification.trans hslid.classification.symm, h.math.trans hmath.symm,
    h.limit.trans hlimit.symm, h.names.trans hslid.names.symm⟩

namespace Scene

variable {s : Scene}

/-! ### Rows that are new -/

/-- The row of a text that was just added: what is kept ready for it is new. -/
def newRow (settings : Settings Float) (view : Viewport Float) (text : String) (color : Color) :
    Row :=
  let eq := Equation.compile text settings.linearProbe
  match eq.classification with
  | .point _ _ => Row.fresh eq color
  | .explicit | .linearInY =>
    { Row.fresh eq color with strip := some (refreshedStrip settings view eq none) }
  | .implicit => { Row.fresh eq color with contour := some (previewOf settings view eq) }

/-- The equation of a new row is that of its text. -/
theorem equation_newRow (settings : Settings Float) (view : Viewport Float) (text : String)
    (color : Color) :
    (newRow settings view text color).equation = Equation.compile text settings.linearProbe := by
  unfold newRow
  dsimp only
  split <;> rfl

/-- **Bringing a new equation up to date** makes its row a new row. -/
theorem refreshEquation_fresh {settings : Settings Float} (id : Nat) {text : String}
    {color : Color} {rows : Keyed Nat Row} (hsettings : s.settings = settings)
    (hrows : s.rows =
      rows.insert id (Row.fresh (Equation.compile text settings.linearProbe) color)) :
    ∃ jobs, s.refreshEquation id = { s with
      rows := rows.insert id (newRow settings s.viewport text color)
      jobs := jobs } := by
  have hrow : s.rows.get? id =
      some (Row.fresh (Equation.compile text settings.linearProbe) color) := by
    rw [hrows, Keyed.get?_insert_self]
  unfold refreshEquation newRow
  rw [hrow]
  dsimp only [Row.fresh]
  cases hclass : (Equation.compile text settings.linearProbe).classification with
  | point x y =>
    dsimp only
    exact ⟨s.jobs, by rw [← Row.fresh, ← hrows]⟩
  | explicit | linearInY =>
    dsimp only
    -- a strip is made where there was none
    refine ⟨s.jobs, ?_⟩
    rw [updateRow, hrows, Keyed.modify_insert, hsettings]
    rfl
  | implicit =>
    -- nothing is kept yet, so neither a fine contour nor one to stand in
    obtain ⟨jobs, hjobs⟩ := requestFine_eq (s.updateRow id fun r => { r with
      contour := some (previewOf s.settings s.viewport
        (Equation.compile text settings.linearProbe)) }) id
      (Equation.compile text settings.linearProbe)
    refine ⟨jobs, hjobs.trans ?_⟩
    rw [updateRow, hrows, Keyed.modify_insert, hsettings]
    rfl

/-- **An equation that is added gets a new row** behind all others. -/
theorem addColored_eq (s : Scene) (text : String) (color : Color) : ∃ jobs,
    s.addColored text color = Scene.refreshDerived { s with
      rows := s.rows.insert s.nextId (newRow s.settings s.viewport text color)
      nextId := s.nextId + 1
      jobs := jobs } := by
  obtain ⟨jobs, hjobs⟩ := refreshEquation_fresh (s := { s with
    rows := s.rows.insert s.nextId (Row.fresh (s.compile text) color)
    nextId := s.nextId + 1 }) s.nextId rfl rfl
  exact ⟨jobs, congrArg refreshDerived hjobs⟩

/-- The rows of texts that were added one after the other. -/
def newRows (settings : Settings Float) (view : Viewport Float) : Palette → List String → List Row
  | _, [] => []
  | palette, text :: texts =>
    newRow settings view text palette.upcoming :: newRows settings view palette.advance texts

/-- What adding texts makes of a scene whose landmarks are up to date. -/
structure Added (texts : List String) (s s' : Scene) : Prop where
  /-- The settings stay. -/
  settings : s'.settings = s.settings
  /-- So does the view. -/
  viewport : s'.viewport = s.viewport
  /-- The new rows stand behind the old ones. -/
  rows : s'.rows.values = s.rows.values ++ newRows s.settings s.viewport s.palette texts
  /-- The landmarks are up to date. -/
  derived : s'.Derived

/-- **Adding texts one after the other** puts their rows behind all others. -/
theorem added (hlt : ∀ i ∈ s.rows.keys, i < s.nextId) (hderived : s.Derived)
    (texts : List String) : Added texts s (texts.foldl add s) := by
  -- the numbers that are given out are greater than all before, so a new row is the last
  induction texts generalizing s with
  | nil => exact ⟨rfl, rfl, (List.append_nil _).symm, hderived⟩
  | cons text texts ih =>
    obtain ⟨jobs, hadd⟩ := addColored_eq { s with palette := s.palette.advance } text
      s.palette.upcoming
    have hnext : s.add text = _ := hadd
    -- the new number is the greatest one now
    have hkeys : ∀ i ∈ (s.add text).rows.keys, i < (s.add text).nextId := by
      intro i hi
      obtain ⟨r, hr⟩ := Keyed.mem_keys.mp hi
      rw [hnext] at hr ⊢
      change Keyed.get? (s.rows.insert _ _) i = some r at hr
      change i < s.nextId + 1
      rw [Keyed.get?_insert] at hr
      split at hr
      · next heq => exact Nat.lt_succ_of_le (Nat.le_of_eq heq.symm)
      · exact Nat.lt_succ_of_lt (hlt i (Keyed.mem_keys.mpr ⟨r, hr⟩))
    have hrest := ih hkeys (hnext ▸ derived_refreshDerived _)
    refine ⟨?_, ?_, ?_, hrest.derived⟩
    · rw [List.foldl_cons, hrest.settings, hnext]
      rfl
    · rw [List.foldl_cons, hrest.viewport, hnext]
      rfl
    · have hvalues : (s.add text).rows.values =
          s.rows.values ++ [newRow s.settings s.viewport text s.palette.upcoming] := by
        rw [hnext]
        exact Keyed.values_insert_of_lt hlt _
      have hpalette : (s.add text).palette = s.palette.advance := by rw [hnext]; rfl
      have hsettings : (s.add text).settings = s.settings := by rw [hnext]; rfl
      have hviewport : (s.add text).viewport = s.viewport := by rw [hnext]; rfl
      rw [List.foldl_cons, hrest.rows, hvalues, hpalette, hsettings, hviewport, List.append_assoc]
      rfl

/-- **What a scene shows after loading** is made of the lines of the sheet. -/
theorem added_loadSheet (s : Scene) (sheet : String) :
    Added (Sheet.read sheet) s.clear (s.loadSheet sheet).1 :=
  added (fun _ hi => absurd hi List.not_mem_nil) ⟨rfl, rfl⟩ (Sheet.read sheet)

/-- The rows after loading are new. -/
theorem rows_loadSheet (s : Scene) (sheet : String) : (s.loadSheet sheet).1.rows.values =
    newRows s.settings s.viewport {} (Sheet.read sheet) :=
  (added_loadSheet s sheet).rows

/-- New rows have the texts that they were made of. -/
theorem texts_newRows (settings : Settings Float) (view : Viewport Float) (palette : Palette)
    (texts : List String) :
    (newRows settings view palette texts).map (fun r => r.equation.raw) = texts := by
  induction texts generalizing palette with
  | nil => rfl
  | cons text texts ih =>
    rw [newRows, List.map_cons, ih, equation_newRow, Equation.raw_compile]

/-- The texts after loading are the lines of the sheet. -/
theorem texts_loadSheet (s : Scene) (sheet : String) :
    (s.loadSheet sheet).1.texts = Sheet.read sheet := by
  rw [texts, rows_loadSheet, texts_newRows]

/-- The sheet depends on the texts only. -/
theorem sheet_congr {t : Scene} (h : t.rows.values = s.rows.values) : t.sheet = s.sheet := by
  rw [sheet, sheet, texts, texts, h]

/-- Landmarks that are up to date depend on the rows, the settings and the view only. -/
theorem landmarks_congr {t : Scene} (hs : s.Derived) (ht : t.Derived)
    (hsettings : t.settings = s.settings) (hviewport : t.viewport = s.viewport)
    (hrows : t.rows.values = s.rows.values) :
    t.intercepts = s.intercepts ∧ t.intersections = s.intersections := by
  have hgraphs : t.graphs = s.graphs := congrArg (List.filterMap Row.graph?) hrows
  constructor
  · rw [ht.1, hs.1, intercepts_refreshDerived, intercepts_refreshDerived, hsettings, hviewport,
      hgraphs]
  · rw [ht.2, hs.2, intersections_refreshDerived, intersections_refreshDerived, hsettings,
      hviewport, hgraphs]

/-! ### There and back -/

/-- **The row came back from a sheet:** its text is the one that was written, in its normal
form, its equation says the same, and its sliders stand where sliders start. -/
structure CameBack (r r' : Row) : Prop where
  /-- It has the normal form of the text. -/
  raw : r'.equation.raw = String.ofList (Sheet.normal r.equation.raw.toList)
  /-- The equations say the same. -/
  alike : r.equation.Alike r'.equation
  /-- The sliders stand where sliders start. -/
  standard : ∀ c p, r'.equation.parameters.get? c = some p → p = .standard

/-- The lines of the sheet of a scene are what its texts that are not blank are written as. -/
theorem read_sheet (s : Scene) : Sheet.read s.sheet =
    (s.rows.values.filter fun r => ¬Blank r.equation.raw).map fun r =>
      String.ofList (Sheet.normal r.equation.raw.toList) := by
  have hblank (r : Row) : (!(Text.trim r.equation.raw.toList).isEmpty) =
      decide (¬Blank r.equation.raw) := by
    rw [decide_not]
    exact congrArg not Bool.decide_eq_true.symm
  rw [sheet, Sheet.read_write, texts, List.filter_map, List.map_map]
  exact congrArg (List.map _) (List.filter_congr fun r _ => hblank r)

/-- **A text that was saved and loaded** came back. -/
theorem cameBack_newRow {settings : Settings Float} {r : Row} (h : OfText settings r.equation)
    (view : Viewport Float) (color : Color) : CameBack r
      (newRow settings view (String.ofList (Sheet.normal r.equation.raw.toList)) color) := by
  obtain ⟨halike, hparameters⟩ :=
    Equation.compile_normal r.equation.raw settings.linearProbe
  refine ⟨?_, ?_, fun c p hp => ?_⟩
  · rw [equation_newRow, Equation.raw_compile]
  · rw [equation_newRow]
    exact halike.of_slid h
  · rw [equation_newRow, hparameters] at hp
    exact Equation.get?_compile hp

/-- So did all texts of a sheet, in their order. -/
theorem cameBack_newRows {settings : Settings Float} {rows : List Row}
    (h : ∀ r ∈ rows, OfText settings r.equation) (view : Viewport Float) (palette : Palette) :
    List.Forall₂ CameBack rows (newRows settings view palette (rows.map fun r =>
      String.ofList (Sheet.normal r.equation.raw.toList))) := by
  induction rows generalizing palette with
  | nil => exact .nil
  | cons r rows ih =>
    refine .cons (cameBack_newRow (h r List.mem_cons_self) view palette.upcoming) ?_
    exact ih (fun r' hr' => h r' (List.mem_cons_of_mem r hr')) palette.advance

/-- **Loading the sheet of a scene** brings back every equation whose text is not blank. -/
theorem cameBack_loadSheet {settings : Settings Float} {t : Scene} (hs : s.Compiled settings)
    (ht : t.settings = settings) :
    List.Forall₂ CameBack (s.rows.values.filter fun r => ¬Blank r.equation.raw)
      (t.loadSheet s.sheet).1.rows.values := by
  rw [rows_loadSheet, read_sheet, ht]
  refine cameBack_newRows (fun r hr => ?_) t.viewport {}
  obtain ⟨i, hi⟩ := Keyed.mem_values.mp (List.mem_filter.mp hr).1
  exact hs.row i r hi

theorem count_loadSheet (s : Scene) (sheet : String) :
    (s.loadSheet sheet).2 = (Sheet.read sheet).length := rfl

theorem count_loadSheet_sheet (s t : Scene) : (t.loadSheet s.sheet).2 =
    (s.rows.values.filter fun r => ¬Blank r.equation.raw).length := by
  rw [count_loadSheet, read_sheet, List.length_map]

/-- What is written of a loaded scene is read as what it was loaded from. -/
theorem read_sheet_loadSheet (s t : Scene) :
    Sheet.read (t.loadSheet s.sheet).1.sheet = Sheet.read s.sheet := by
  rw [sheet, texts_loadSheet, sheet]
  exact Sheet.read_write_read s.texts

theorem count_loadSheet_again (s t : Scene) :
    ((t.loadSheet s.sheet).1.loadSheet (t.loadSheet s.sheet).1.sheet).2 =
      (t.loadSheet s.sheet).2 := by
  rw [count_loadSheet, read_sheet_loadSheet, count_loadSheet]

theorem rows_loadSheet_again (s t : Scene) :
    ((t.loadSheet s.sheet).1.loadSheet (t.loadSheet s.sheet).1.sheet).1.rows.values =
      (t.loadSheet s.sheet).1.rows.values := by
  have honce := added_loadSheet t s.sheet
  have hsettings : (t.loadSheet s.sheet).1.settings = t.settings := honce.settings
  have hviewport : (t.loadSheet s.sheet).1.viewport = t.viewport := honce.viewport
  rw [rows_loadSheet, read_sheet_loadSheet, hsettings, hviewport, rows_loadSheet]

theorem landmarks_loadSheet_again (s t : Scene) :
    ((t.loadSheet s.sheet).1.loadSheet (t.loadSheet s.sheet).1.sheet).1.intercepts =
        (t.loadSheet s.sheet).1.intercepts ∧
      ((t.loadSheet s.sheet).1.loadSheet (t.loadSheet s.sheet).1.sheet).1.intersections =
        (t.loadSheet s.sheet).1.intersections := by
  have hrows := rows_loadSheet_again s t
  have honce := (added_loadSheet t s.sheet).derived
  -- the second load finds the rows of the first
  generalize t.loadSheet s.sheet = once at hrows honce ⊢
  have hagain := added_loadSheet once.1 once.1.sheet
  exact landmarks_congr honce hagain.derived hagain.settings hagain.viewport hrows

/-- **What was saved comes back.** Let two scenes of the same settings have been brought
about in any way, and let the second load what is written of the first. Then it shows, in
order, one row for each equation of the first whose text is not blank, and each row came
back. If it saves and loads once more, it shows what it showed, and writes what it
wrote. -/
theorem load_sheet (settings : Settings Float) (width height width' height' : Float)
    (actions actions' : List Action) :
    let s := (Scene.new settings width height).run actions
    let t := (Scene.new settings width' height').run actions'
    let saved := s.rows.values.filter fun r => ¬Blank r.equation.raw
    let once := t.loadSheet s.sheet
    let again := once.1.loadSheet once.1.sheet
    List.Forall₂ CameBack saved once.1.rows.values ∧ once.2 = saved.length ∧
      again.1.rows.values = once.1.rows.values ∧ again.2 = once.2 ∧
      again.1.sheet = once.1.sheet ∧ again.1.intercepts = once.1.intercepts ∧
      again.1.intersections = once.1.intersections := by
  intro s t saved once again
  have hs : s.Compiled settings := .run settings width height actions
  have ht : t.Compiled settings := .run settings width' height' actions'
  have hrows : again.1.rows.values = once.1.rows.values := rows_loadSheet_again s t
  exact ⟨cameBack_loadSheet hs ht.setup, count_loadSheet_sheet s t, hrows,
    count_loadSheet_again s t, sheet_congr hrows, landmarks_loadSheet_again s t⟩

end Scene

end CurvePlot
