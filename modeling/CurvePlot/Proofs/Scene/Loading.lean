import CurvePlot.Proofs.JobBoard.Flight
import CurvePlot.Proofs.Scene.Caches
import CurvePlot.Proofs.Scene.RoundTrip
import CurvePlot.Proofs.Scene.Waiting
/-!
# Loading forgets the old scene

To load a sheet is to clear the scene and to add the lines. What the scene holds then, line
by line, is a function of the settings, the view and the lines (`newPositions`): rows, and a
pass for every implicit curve unless the view moves. The numbers of the equations and the
tickets of the passes go on where they were, so two scenes that load the same sheet hold the
same up to these (`holdsSame_loadSheet`).

That they go on is what keeps the past away. A result that still lies on the board has a
ticket from before, and those are below every ticket that counts afterwards
(`Current.loaded`). Nothing waits in a scene that was just loaded, so whatever waits later
was asked for later (`Asked.run`).
-/

namespace CurvePlot

namespace Scene

variable {s s' t : Scene} {id n : Nat}

/-- What a scene holds for its equations, in order and without their numbers: each row, and
the pass that is awaited for it. -/
def positions (s : Scene) : List (Row × Option (Viewport Float × Option Pass)) :=
  s.rows.entries.map fun (i, r) => (r, s.jobs.awaited i)

/-- The pass that is begun for a text when it is added. -/
def newPass (settings : Settings Float) (view : Viewport Float) (interacting : Bool)
    (text : String) : Option (Viewport Float × Option Pass) :=
  let eq := Equation.compile text settings.linearProbe
  if eq.isImplicit && !interacting then some (view, some ⟨eq, view, settings, false⟩) else none

/-- What is held for texts that were added one after the other. -/
def newPositions (settings : Settings Float) (view : Viewport Float) (interacting : Bool) :
    Palette → List String → List (Row × Option (Viewport Float × Option Pass))
  | _, [] => []
  | palette, text :: texts =>
    (newRow settings view text palette.upcoming, newPass settings view interacting text) ::
      newPositions settings view interacting palette.advance texts

/-- Of an equation for which nothing is kept or awaited, a pass is begun unless the view
moves. -/
theorem jobs_refreshEquation {r : Row} (hr : s.rows.get? id = some r) (hcontour : r.contour = none)
    (hidle : s.jobs.isRunningFor id s.viewport = false) : (s.refreshEquation id).jobs =
      if r.equation.isImplicit && !s.isInteracting then
        s.jobs.spawn id r.equation s.viewport s.settings
      else s.jobs := by
  -- no contour is kept, so none is fine
  have hfine : s.hasFine r = false := by
    unfold hasFine
    rw [hcontour]
    rfl
  unfold refreshEquation Equation.isImplicit
  rw [hr]
  cases hclass : r.equation.classification with
  | point x y => simp only [hclass]; rfl
  | explicit | linearInY => simp only [hclass]; rfl
  | implicit =>
    simp only [hclass, hfine]
    unfold requestFine
    show (if s.isInteracting || s.jobs.isRunningFor id s.viewport then _ else _ : Scene).jobs = _
    -- with no pass awaited, only a moving view keeps one from being begun
    rw [hidle, Bool.or_false]
    cases s.isInteracting <;> rfl

/-- The number of the next equation is not that of any awaited pass. -/
theorem Current.get?_inFlight_nextId (h : s.Current id n) :
    s.jobs.inFlight.get? s.nextId = none := by
  cases hx : s.jobs.inFlight.get? s.nextId with
  | none => rfl
  | some x =>
    -- the row of an awaited pass is there, and the number of the next equation is above all rows
    obtain ⟨job, ⟨⟨-, r, hr, -⟩, -⟩, hjob, -⟩ := h.passes.inFlight hx
    exact absurd (hjob ▸ h.row_lt job.id r hr) (Nat.lt_irrefl s.nextId)

theorem Current.keys_lt (h : s.Current id n) : ∀ i ∈ s.rows.keys, i < s.nextId := by
  intro i hi
  obtain ⟨r, hr⟩ := Keyed.mem_keys.mp hi
  exact h.row_lt i r hr

/-- **An equation that is added takes its place behind the others,** of which nothing is
changed. -/
theorem positions_addColored (h : s.Current id n) (text : String) (color : Color) :
    (s.addColored text color).positions = s.positions ++
      [(newRow s.settings s.viewport text color,
        newPass s.settings s.viewport s.isInteracting text)] := by
  let written : Scene := { s with
    rows := s.rows.insert s.nextId (Row.fresh (s.compile text) color)
    nextId := s.nextId + 1 }
  -- everything but the board is told by `addColored_eq`
  obtain ⟨jobs, heq⟩ := addColored_eq s text color
  obtain ⟨log, hrun, -⟩ := h.passes
  have hidle : s.jobs.isRunningFor s.nextId s.viewport = false := by
    rw [JobBoard.isRunningFor, h.get?_inFlight_nextId]
    rfl
  have hjobs : jobs = if (s.compile text).isImplicit && !s.isInteracting then
      s.jobs.spawn s.nextId (s.compile text) s.viewport s.settings else s.jobs := by
    calc jobs = (s.addColored text color).jobs := by rw [heq]; rfl
      _ = (written.refreshEquation s.nextId).jobs := rfl
      _ = _ := jobs_refreshEquation (s := written) (Keyed.get?_insert_self _ _ _) rfl hidle
  -- the other equations keep their passes, whether one is begun or not
  have hothers : s.jobs.Confined s.nextId jobs := by
    rw [hjobs]
    split
    · exact .spawn hrun s.nextId (s.compile text) s.viewport s.settings
    · exact .refl s.nextId s.jobs
  have hself : jobs.awaited s.nextId = newPass s.settings s.viewport s.isInteracting text := by
    rw [hjobs]
    unfold newPass
    dsimp only
    show JobBoard.awaited (if (s.compile text).isImplicit && !s.isInteracting then _ else _) _ =
      if (s.compile text).isImplicit && !s.isInteracting then _ else _
    split
    · exact JobBoard.awaited_spawn hrun s.nextId (s.compile text) s.viewport s.settings
    · rw [JobBoard.awaited, h.get?_inFlight_nextId]
      rfl
  rw [heq]
  show (s.rows.insert s.nextId _).entries.map (fun e => (e.2, jobs.awaited e.1)) = _
  rw [Keyed.entries_insert_of_lt h.keys_lt, List.map_append, List.map_singleton, hself]
  congr 1
  -- behind the old entries stands one new entry; it remains that the old ones look the same
  refine List.map_congr_left fun e he => ?_
  have hne : e.1 ≠ s.nextId := Nat.ne_of_lt (h.keys_lt e.1 (List.mem_map_of_mem he))
  rw [hothers.awaited_of_ne hne]

/-- **What adding texts makes of a scene:** new places behind the old ones, under numbers of
their own, and otherwise nothing but passes, landmarks and colors that were given out. -/
structure Extended (texts : List String) (s s' : Scene) : Prop where
  positions : s'.positions = s.positions ++
    newPositions s.settings s.viewport s.isInteracting s.palette texts
  keys : s'.rows.keys = s.rows.keys ++ List.range' s.nextId texts.length
  frame : ∃ rows jobs intercepts intersections, s' = { s with
    rows := rows
    nextId := s.nextId + texts.length
    palette := ⟨s.palette.given + texts.length⟩
    jobs := jobs
    intercepts := intercepts
    intersections := intersections }

/-- To add texts is to add the first and then the others. -/
theorem Extended.cons (h : s.Current id n) {text : String} {texts : List String}
    (hrest : Extended texts (s.add text) s') : Extended (text :: texts) s s' := by
  let advanced : Scene := { s with palette := s.palette.advance }
  have hadvanced : advanced.Current id n := h.congr rfl rfl rfl rfl
  obtain ⟨jobs, hadd⟩ := addColored_eq advanced text s.palette.upcoming
  have hnext : s.add text = _ := hadd
  have hpositions : (s.add text).positions = s.positions ++
      [(newRow s.settings s.viewport text s.palette.upcoming,
        newPass s.settings s.viewport s.isInteracting text)] :=
    positions_addColored hadvanced text s.palette.upcoming
  have hkeys : (s.add text).rows.keys = s.rows.keys ++ [s.nextId] := by
    rw [hnext]
    exact Keyed.keys_insert_of_lt h.keys_lt _
  -- the rest is added to the scene with the first text
  obtain ⟨rows, jobs', intercepts, intersections, hframe⟩ := hrest.frame
  refine ⟨?_, ?_, rows, jobs', intercepts, intersections, ?_⟩
  · rw [hrest.positions, hpositions, List.append_assoc, hnext]
    rfl
  · rw [hrest.keys, hkeys, List.append_assoc, List.length_cons, List.range'_succ, hnext]
    rfl
  · rw [hframe, hnext, List.length_cons, Nat.add_comm texts.length 1, ← Nat.add_assoc,
      ← Nat.add_assoc]
    rfl

theorem extended (h : s.Current id n) (texts : List String) :
    Extended texts s (texts.foldl Scene.add s) := by
  induction texts generalizing s with
  | nil => exact ⟨(List.append_nil _).symm, (List.append_nil _).symm, _, _, _, _, rfl⟩
  | cons text texts ih => exact .cons h (ih (h.add text))

/-! ### Loading -/

/-- **The scenes hold the same** for their equations, whatever the numbers are, and will give
out the same colors. -/
structure HoldsSame (s t : Scene) : Prop where
  positions : t.positions = s.positions
  intercepts : t.intercepts = s.intercepts
  intersections : t.intersections = s.intersections
  palette : t.palette = s.palette

/-- Nothing is pinned and nothing waits. -/
structure Bare (s : Scene) : Prop where
  pins : s.pins = []
  pendingText : s.pendingText = Keyed.empty
  edits : s.edits.deadlines = Keyed.empty
  refreshes : s.refreshes.deadlines = Keyed.empty

theorem Bare.asked (h : s.Bare) : Asked [] s where
  pendingText i text hi := by
    rw [h.pendingText] at hi
    cases hi
  edit i moment hi := by
    rw [h.edits] at hi
    cases hi
  refresh i moment hi := by
    rw [h.refreshes] at hi
    cases hi

theorem extended_loadSheet (h : s.Current id n) (sheet : String) :
    Extended (Sheet.read sheet) s.clear (s.loadSheet sheet).1 :=
  extended h.clear (Sheet.read sheet)

theorem bare_loadSheet (h : s.Current id n) (sheet : String) : (s.loadSheet sheet).1.Bare := by
  obtain ⟨rows, jobs, intercepts, intersections, hframe⟩ := (extended_loadSheet h sheet).frame
  rw [hframe]
  exact ⟨rfl, rfl, rfl, rfl⟩

/-- **A sheet is loaded into a scene alike** whatever stood there before. -/
theorem holdsSame_loadSheet {id' n' : Nat} (hs : s.Current id n) (ht : t.Current id' n')
    (hsettings : t.settings = s.settings) (hviewport : t.viewport = s.viewport)
    (hinteracting : t.isInteracting = s.isInteracting) (sheet : String) :
    HoldsSame (s.loadSheet sheet).1 (t.loadSheet sheet).1 := by
  have hs' := extended_loadSheet hs sheet
  have ht' := extended_loadSheet ht sheet
  have hadded := added_loadSheet s sheet
  have hadded' := added_loadSheet t sheet
  have hrows : (t.loadSheet sheet).1.rows.values = (s.loadSheet sheet).1.rows.values := by
    rw [rows_loadSheet, rows_loadSheet, hsettings, hviewport]
  -- the landmarks are computed from rows, view and settings, and these are alike
  obtain ⟨hintercepts, hintersections⟩ := landmarks_congr hadded.derived hadded'.derived
    (hadded'.settings.trans (hsettings.trans hadded.settings.symm))
    (hadded'.viewport.trans (hviewport.trans hadded.viewport.symm)) hrows
  refine ⟨?_, hintercepts, hintersections, ?_⟩
  · rw [ht'.positions, hs'.positions]
    -- both sides are the list of new positions behind nothing
    show [] ++ newPositions t.settings t.viewport t.isInteracting {} (Sheet.read sheet) =
      [] ++ newPositions s.settings s.viewport s.isInteracting {} (Sheet.read sheet)
    rw [hsettings, hviewport, hinteracting]
  · obtain ⟨rows, jobs, intercepts, intersections, hframe⟩ := hs'.frame
    obtain ⟨rows', jobs', intercepts', intersections', hframe'⟩ := ht'.frame
    rw [hframe, hframe']
    rfl

/-- Nothing that was begun before a sheet is loaded counts for an equation afterwards. -/
theorem Current.loaded (h : s.Current id n) (sheet : String) (i : Nat) :
    (s.loadSheet sheet).1.Current i s.jobs.nextTicket := by
  -- on a cleared scene all older tickets are called off, so the board may count from the next one
  have hcleared : s.clear.Current i s.clear.jobs.nextTicket :=
    h.clear.restart (h.passes.cancelAll.mono fun _ hnone => hnone.elim)
  exact hcleared.foldl_add (Sheet.read sheet)

/-- **Loading forgets the old scene.** Two scenes of the same settings and the same view that
load a sheet hold the same afterwards, whatever they went through. Their equations have new
numbers in a row, nothing is pinned, nothing waits, and only passes that were begun since are
awaited. And however it goes on, what waits was asked for since, and no result is kept of a
pass that was begun before. -/
theorem load_forgets (settings : Settings Float) (width height width' height' : Float)
    (actions actions' : List Action) (sheet : String) :
    let s := (Scene.new settings width height).run actions
    let t := (Scene.new settings width' height').run actions'
    let loaded := s.loadSheet sheet
    (t.viewport = s.viewport → t.dragging = s.dragging → t.scrollSettlesAt = s.scrollSettlesAt →
      (t.loadSheet sheet).2 = loaded.2 ∧ HoldsSame loaded.1 (t.loadSheet sheet).1) ∧
    loaded.1.rows.keys = List.range' s.nextId loaded.2 ∧ loaded.1.Bare ∧
    (∀ id x, loaded.1.jobs.inFlight.get? id = some x →
      id ∈ loaded.1.rows.keys ∧ s.jobs.nextTicket ≤ x.ticket) ∧
    ∀ later, Asked later (loaded.1.run later) ∧
      ∀ ticket f, (loaded.1.run later).Keeps ticket f → s.jobs.nextTicket ≤ ticket := by
  intro s t loaded
  have hs : s.Current 0 0 := (Current.start settings width height).run actions
  have ht : t.Current 0 0 := (Current.start settings width' height').run actions'
  have hsettings : t.settings = s.settings :=
    (Compiled.run settings width' height' actions').setup.trans
      (Compiled.run settings width height actions).setup.symm
  have hbare : loaded.1.Bare := bare_loadSheet hs sheet
  refine ⟨fun hviewport hdragging hscroll => ⟨rfl, ?_⟩, ?_, hbare, fun id x hx => ?_,
    fun later => ⟨hbare.asked.run later, fun ticket f hf => ?_⟩⟩
  · have hinteracting : t.isInteracting = s.isInteracting := by
      rw [isInteracting, isInteracting, hdragging, hscroll]
    exact holdsSame_loadSheet hs ht hsettings hviewport hinteracting sheet
  · exact (extended_loadSheet hs sheet).keys
  · -- what is awaited has a row, and a ticket from after the restart
    obtain ⟨job, ⟨⟨-, r, hr, -⟩, hticket⟩, rfl, rfl⟩ := (hs.loaded sheet id).passes.inFlight hx
    exact ⟨Keyed.mem_keys.mpr ⟨r, hr⟩, hticket rfl⟩
  · exact ((hs.loaded sheet f.id).run later).le_of_keeps hf rfl

/-- A parabola is loaded into a scene with two lines, and into one with nothing. -/
theorem load_forgets_lines :
    let s := (Scene.new .standard 800.0 600.0).run [.add "x", .add "1-x"]
    let t := Scene.new .standard 800.0 600.0
    t.viewport = s.viewport ∧ t.dragging = s.dragging ∧ t.scrollSettlesAt = s.scrollSettlesAt ∧
      HoldsSame (s.loadSheet "y*y=x").1 (t.loadSheet "y*y=x").1 := by
  intro s t
  have hextended : Extended ["x", "1-x"] t s :=
    extended (Current.start .standard 800.0 600.0) ["x", "1-x"]
  obtain ⟨rows, jobs, intercepts, intersections, hframe⟩ := hextended.frame
  have hviewport : t.viewport = s.viewport := by rw [hframe]
  have hdragging : t.dragging = s.dragging := by rw [hframe]
  have hscroll : t.scrollSettlesAt = s.scrollSettlesAt := by rw [hframe]
  have hforgets := load_forgets .standard 800.0 600.0 800.0 600.0 [.add "x", .add "1-x"] [] "y*y=x"
  exact ⟨hviewport, hdragging, hscroll, (hforgets.1 hviewport hdragging hscroll).2⟩

end Scene

end CurvePlot
