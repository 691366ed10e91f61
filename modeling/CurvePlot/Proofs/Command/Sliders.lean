import CurvePlot.Command.Run
import CurvePlot.Proofs.Scene.Resting
/-!
# The last value of a slider counts

The slider values of a command line are set one after the other, each in every equation that
has the letter. Since a value is written over the one before, an equation ends up with the last
value for each of its letters (`tuned`), and its old strip is gone if there was one
(`foldl_slid`).
-/

namespace CurvePlot.Command

open Scene

/-- The last of the values for the slider of a letter. -/
def lastValue? (sliders : List SliderArg) (name : Char) : Option Float :=
  (sliders.reverse.find? fun arg => arg.name = name).map (·.value)

/-- The equation with its sliders where the last of the values put them. -/
def tuned (sliders : List SliderArg) (eq : Equation) : Equation :=
  { eq with parameters := eq.parameters.mapValues fun name p =>
    { p with value := (lastValue? sliders name).getD p.value } }

/-- Whether one of the values is for a slider of the equation. -/
def moves (sliders : List SliderArg) (eq : Equation) : Bool :=
  sliders.any fun arg => eq.parameters.contains arg.name

variable {sliders : List SliderArg} {arg : SliderArg} {eq : Equation} {name : Char}

/-- A value counts unless there is a later one. -/
theorem lastValue?_cons : lastValue? (arg :: sliders) name =
    (lastValue? sliders name).or (if arg.name = name then some arg.value else none) := by
  rw [lastValue?, List.reverse_cons, List.find?_append, Option.map_or]
  congr 1
  by_cases hname : arg.name = name <;> simp [hname]

theorem lastValue?_eq_none (h : ∀ arg ∈ sliders, arg.name ≠ name) :
    lastValue? sliders name = none := by
  rw [lastValue?, Option.map_eq_none_iff, List.find?_eq_none]
  intro arg harg
  rw [decide_eq_true_iff]
  exact h arg (List.mem_reverse.mp harg)

theorem keys_tuned : (tuned sliders eq).parameters.keys = eq.parameters.keys :=
  Keyed.keys_mapValues _ _

theorem get?_tuned : (tuned sliders eq).parameters.get? name =
    (eq.parameters.get? name).map fun p =>
      { p with value := (lastValue? sliders name).getD p.value } :=
  Keyed.get?_mapValues _ _ _

/-- Values for other letters leave an equation as it is. -/
theorem tuned_of_not_moves (h : moves sliders eq = false) : tuned sliders eq = eq := by
  have hparameters : (tuned sliders eq).parameters = eq.parameters := by
    refine Keyed.ext_get? fun name => ?_
    rw [get?_tuned]
    cases hp : eq.parameters.get? name with
    | none => rfl
    | some p =>
      have hnone : lastValue? sliders name = none := by
        refine lastValue?_eq_none fun arg harg hname => ?_
        have hcontains := List.any_eq_false.mp h arg harg
        rw [hname, Keyed.contains, hp] at hcontains
        exact hcontains rfl
      rw [hnone]
      rfl
  rw [show tuned sliders eq = { eq with parameters := (tuned sliders eq).parameters } from rfl,
    hparameters]

/-! ### One value after the other -/

/-- Values that are set after one that was written. -/
theorem tuned_modify : tuned sliders { eq with parameters := eq.parameters.modify arg.name fun p =>
    { p with value := arg.value } } = tuned (arg :: sliders) eq := by
  unfold tuned
  congr 1
  refine Keyed.ext_get? fun name => ?_
  rw [Keyed.get?_mapValues, Keyed.get?_mapValues, lastValue?_cons]
  by_cases hname : name = arg.name
  · subst hname
    rw [Keyed.get?_modify_self, if_pos rfl]
    cases eq.parameters.get? arg.name with
    | none => rfl
    | some p => cases lastValue? sliders arg.name <;> rfl
  · rw [Keyed.get?_modify_of_ne _ _ hname, if_neg (Ne.symm hname), Option.or_none]

theorem tuned_cons_of_not_contains (h : eq.parameters.contains arg.name = false) :
    tuned (arg :: sliders) eq = tuned sliders eq := by
  unfold tuned
  congr 1
  refine Keyed.ext_get? fun name => ?_
  rw [Keyed.get?_mapValues, Keyed.get?_mapValues, lastValue?_cons]
  by_cases hname : name = arg.name
  · subst hname
    have hnone : eq.parameters.get? arg.name = none := by
      rwa [Keyed.contains, Option.isSome_eq_false_iff, Option.isNone_iff_eq_none] at h
    rw [hnone]
    rfl
  · rw [if_neg (Ne.symm hname), Option.or_none]

/-- **Setting one value after the other** tunes the equation, and if that moves a slider, the
old strip is dropped and a refresh is awaited. -/
theorem foldl_slid (sliders : List SliderArg) {r : Row} (hcontour : r.contour = none)
    (pending : Bool) : sliders.foldl (fun x arg => slid arg.name arg.value x) (r, pending) =
      ({ r with
          equation := tuned sliders r.equation
          strip := if moves sliders r.equation then none else r.strip },
        pending || moves sliders r.equation) := by
  -- by induction on the values; each is set in a row of which nothing is kept but the strip
  induction sliders generalizing r pending with
  | nil =>
    have hsame : tuned [] r.equation = r.equation := tuned_of_not_moves rfl
    rw [List.foldl_nil, hsame, show moves [] r.equation = false from rfl, Bool.or_false]
    rfl
  | cons arg sliders ih =>
    rw [List.foldl_cons, moves, List.any_cons, ← moves]
    cases hcontains : r.equation.parameters.contains arg.name with
    | false =>
      have hslid : slid arg.name arg.value (r, pending) = (r, pending) := by
        simp [slid, Parameter.Table.set?, hcontains]
      rw [hslid, ih hcontour, tuned_cons_of_not_contains hcontains, Bool.false_or]
    | true =>
      let moved : Equation := { r.equation with
        parameters := r.equation.parameters.modify arg.name fun p => { p with value := arg.value } }
      have hslid : slid arg.name arg.value (r, pending) =
          (Row.evict { r with equation := moved }, true) := by
        simp [slid, Parameter.Table.set?, hcontains, moved]
      have htuned : tuned sliders moved = tuned (arg :: sliders) r.equation := tuned_modify
      rw [hslid, ih rfl]
      unfold Row.evict
      dsimp only
      rw [htuned, Bool.true_or, Bool.true_or, Bool.or_true, if_pos rfl, ite_self, hcontour]

/-- **A row that is up to date, in which values are set and come to rest,** has a strip of the
tuned equation. It is made from the old one unless a slider was moved. -/
theorem rested_foldl_slid (settings : Settings Float) (view : Viewport Float)
    (sliders : List SliderArg) (eq : Equation) (color : Color) (old : Strip Float) :
    rested settings view (sliders.foldl (fun x arg => slid arg.name arg.value x)
      (Row.refreshed settings view
        ⟨eq, color, if eq.isExplicit then some old else none, none⟩, false)) =
      (⟨tuned sliders eq, color,
        if eq.isExplicit then
          some (refreshedStrip settings view (tuned sliders eq)
            (if moves sliders eq then none else some old))
        else none, none⟩, false) := by
  have hkind : (tuned sliders eq).isExplicit = eq.isExplicit := rfl
  cases hexplicit : eq.isExplicit with
  | false =>
    rw [Row.refreshed_of_not_explicit hexplicit, foldl_slid sliders rfl, rested]
    dsimp only
    rw [Row.refreshed_of_not_explicit (hkind.trans hexplicit), ite_self]
    simp
  | true =>
    rw [Row.refreshed_of_explicit hexplicit, foldl_slid sliders rfl, rested, Bool.false_or]
    dsimp only
    cases hmoves : moves sliders eq with
    | false => simp [tuned_of_not_moves hmoves]
    | true =>
      -- the old strip went with the first value that was set
      simp only [if_true]
      rw [Row.refreshed_of_explicit (hkind.trans hexplicit)]

/-! ### In a scene -/

/-- The slider values, each set in equations with numbers below a bound. -/
def sliderActions (count : Nat) (sliders : List SliderArg) : List Action :=
  sliders.flatMap fun arg => (List.range count).map fun id => .setParameter id arg.name arg.value 0

/-- **To set all values in all equations** is done to the state of each. -/
theorem state?_sliderActions {s : Scene} {count : Nat} (hkeys : s.rows.keys = List.range count)
    (sliders : List SliderArg) (i : Nat) :
    (s.run (sliderActions count sliders)).state? i =
      (s.state? i).map fun x => sliders.foldl (fun x arg => slid arg.name arg.value x) x := by
  induction sliders generalizing s with
  | nil => exact Option.map_id'.symm
  | cons arg sliders ih =>
    let first : Scene := s.rows.keys.foldl
      (fun s id => s.act (.setParameter id arg.name arg.value 0)) s
    have hfirst : s.run ((List.range count).map fun id =>
        .setParameter id arg.name arg.value 0) = first := by
      rw [Scene.run, List.foldl_map, ← hkeys]
    have hsame : SameSurroundings s first := by
      refine List.foldlRecOn s.rows.keys _ (motive := SameSurroundings s) (.refl s)
        fun t ht id _ => ht.trans (.setParameter t id arg.name arg.value 0)
    have hstate : first.state? i = (s.state? i).map (slid arg.name arg.value) :=
      state?_foldl_keys (I := fun _ => True) (fun _ _ _ => trivial)
        (fun t id i _ => state?_setParameter t id arg.name arg.value 0 i) trivial i
    rw [sliderActions, List.flatMap_cons, run_append, hfirst, ← sliderActions,
      ih (hsame.keys.trans hkeys), hstate, Option.map_map]
    rfl

/-- The slider values, and if there are any, the parts of a poll one delay later. -/
def slideActions (count delay : Nat) (sliders : List SliderArg) : List Action :=
  sliderActions count sliders ++
    if sliders.isEmpty then [] else [.applyEdits delay, .applyRefreshes delay, .applyScroll delay]

theorem isQuiet_of_mem_sliderActions {count : Nat} {a : Action}
    (h : a ∈ sliderActions count sliders) : a.isQuiet = true := by
  obtain ⟨arg, -, harg⟩ := List.mem_flatMap.mp h
  obtain ⟨id, -, rfl⟩ := List.mem_map.mp harg
  rfl

theorem isQuiet_of_mem_slideActions {count delay : Nat} {a : Action}
    (h : a ∈ slideActions count delay sliders) : a.isQuiet = true := by
  rcases List.mem_append.mp h with h | h
  · exact isQuiet_of_mem_sliderActions h
  · split at h
    · cases h
    · simp only [List.mem_cons, List.not_mem_nil, or_false] at h
      rcases h with rfl | rfl | rfl <;> rfl

section Waiting

variable {s : Scene}

/-- **All values are set at one moment, so all that waits is due one delay later.** -/
theorem mem_due_sliderActions (h : Asked [] s) {count i : Nat}
    (hi : (s.run (sliderActions count sliders)).refreshes.isPending i = true) :
    i ∈ (s.run (sliderActions count sliders)).refreshes.due
      (s.run (sliderActions count sliders)).refreshes.delay := by
  obtain ⟨moment, hmoment⟩ := Option.isSome_iff_exists.mp hi
  obtain ⟨name, value, now, hmem, rfl⟩ := (h.run (sliderActions count sliders)).refresh i moment hmoment
  obtain ⟨arg, -, harg⟩ := List.mem_flatMap.mp hmem
  obtain ⟨id, -, heq⟩ := List.mem_map.mp harg
  cases heq
  exact Debouncer.mem_due.mpr ⟨_, hmoment, Nat.le_of_eq (Nat.zero_add _)⟩

theorem edits_of_asked (h : Asked [] s) : s.edits.deadlines = Keyed.empty := by
  refine Keyed.ext_get? fun id => Option.eq_none_iff_forall_ne_some.mpr fun moment hmoment => ?_
  obtain ⟨text, now, hmem, -⟩ := h.edit id moment hmoment
  cases hmem

theorem isPending_of_asked (h : Asked [] s) (i : Nat) : s.refreshes.isPending i = false := by
  rw [Debouncer.isPending, Keyed.contains, Option.isSome_eq_false_iff, Option.isNone_iff_eq_none,
    Option.eq_none_iff_forall_ne_some]
  intro moment hmoment
  obtain ⟨name, value, now, hmem, -⟩ := h.refresh i moment hmoment
  cases hmem

/-- Where no text waits and nothing scrolls, the poll is about the sliders. -/
theorem run_slideActions_cons (hedits : s.edits.deadlines = Keyed.empty)
    (hscroll : s.scrollSettlesAt = none) (count : Nat) (arg : SliderArg)
    (sliders : List SliderArg) :
    let moved := s.run (sliderActions count (arg :: sliders))
    SameSurroundings s moved ∧
      s.run (slideActions count s.refreshes.delay (arg :: sliders)) =
        (moved.applyRefreshes moved.refreshes.delay).1 := by
  intro moved
  have hmoved : SameSurroundings s moved := .run hedits hscroll fun _ ha =>
    isQuiet_of_mem_sliderActions ha
  have hrefreshed := SameSurroundings.applyRefreshes moved moved.refreshes.delay
  refine ⟨hmoved, ?_⟩
  rw [slideActions, run_append, ← hmoved.refreshDelay]
  show (((moved.applyEdits moved.refreshes.delay).1.applyRefreshes
    moved.refreshes.delay).1.applyScroll moved.refreshes.delay).1 = _
  rw [applyEdits_of_none (hmoved.edits ▸ hedits), applyScroll_of_none]
  rw [hrefreshed.scrollSettlesAt, hmoved.scrollSettlesAt, hscroll]

/-- **To set all values and let the sliders come to rest** is done to the state of each equation,
where nothing waited before. -/
theorem state?_slideActions (h : Asked [] s) (hscroll : s.scrollSettlesAt = none) {count : Nat}
    (hkeys : s.rows.keys = List.range count) (sliders : List SliderArg) (i : Nat) :
    (s.run (slideActions count s.refreshes.delay sliders)).state? i = (s.state? i).map fun x =>
      rested s.settings s.viewport (sliders.foldl (fun x arg => slid arg.name arg.value x) x) := by
  -- without values there is no poll, but then nothing has to come to rest either
  cases sliders with
  | nil =>
    rw [show s.run (slideActions count s.refreshes.delay []) = s from rfl, state?,
      isPending_of_asked h, Option.map_map]
    rfl
  | cons arg sliders =>
    obtain ⟨hmoved, hpoll⟩ := run_slideActions_cons (edits_of_asked h) hscroll count arg sliders
    rw [hpoll, state?_applyRefreshes fun id hid => mem_due_sliderActions h hid,
      state?_sliderActions hkeys, Option.map_map, hmoved.settings, hmoved.viewport]
    rfl

/-- Afterwards nothing waits. -/
theorem isPending_slideActions (h : Asked [] s) (hscroll : s.scrollSettlesAt = none) (count : Nat)
    (sliders : List SliderArg) (i : Nat) :
    (s.run (slideActions count s.refreshes.delay sliders)).refreshes.isPending i = false := by
  cases sliders with
  | nil => exact isPending_of_asked h i
  | cons arg sliders =>
    obtain ⟨-, hpoll⟩ := run_slideActions_cons (edits_of_asked h) hscroll count arg sliders
    rw [hpoll, refreshes_applyRefreshes]
    exact Debouncer.isPending_deliver_of_due (mem_due_sliderActions h)

end Waiting

end CurvePlot.Command
