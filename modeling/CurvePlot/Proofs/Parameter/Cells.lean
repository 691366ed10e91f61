import CurvePlot.Parameter.Bank
import CurvePlot.Proofs.Keyed
import CurvePlot.Proofs.Parameter.Letters
import CurvePlot.Proofs.Parameter.Table
/-!
# Tables with cells of their own

When a table takes over the sliders of another one, each range is offered to a cell that takes
ranges only, and nobody looks at whether it was taken. It always is (`run_inherits`): whatever was
done to the tables before, every slider has a range, so that value and range are both copied, and
nothing else changes.

Tables are changed by an `Action`: letters are found in a text, a slider or its range is moved,
sliders are taken over. No table is made a copy of another, so each letter of each table keeps a
cell of its own. That is the invariant (`Separate`), together with what stands in the cells
(`Cell.Fits`). Under it a bank is what its letters find, and each action is said by what the letters
find afterwards (`cell?_addLetter`, `cell?_update`, `cell?_inheritLetter`).
-/

namespace CurvePlot.Parameter

/-- **The cell may stand under the letter:** it was made for it, the letter can name a parameter,
and the slider has a range. -/
structure Cell.Fits (name : Char) (cell : Cell) : Prop where
  name_eq : cell.name = name
  isName : Parameter.isName name = true
  min_lt_max : cell.slider.min < cell.slider.max

/-- A cell that takes over the slider of one that fits, under the same letter, becomes this one. -/
theorem Cell.Fits.tune_inherit {c : Char} {cell old : Cell} (h : cell.Fits c) (hold : old.Fits c) :
    cell.tune (·.inherit old.slider) = old := by
  rw [Cell.tune, inherit_of_lt hold.min_lt_max, h.name_eq, ← hold.name_eq]

namespace Bank

/-- Something that is done to a table of a bank. -/
inductive Action where
  /-- The letters of a text are added. -/
  | detect (table : Nat) (text : String)
  | set (table : Nat) (name : Char) (value : Float)
  | setRange (table : Nat) (name : Char) (min max : Float)
  /-- The sliders of another table are taken over. -/
  | inherit (table other : Nat)

/-- What an action makes of a bank. Nothing is done to a letter that the table does not have. -/
def act (b : Bank) : Action → Bank
  | .detect table text => b.register table (letters text.toList)
  | .set table name value => (b.set? table name value).getD b
  | .setRange table name min max => ((b.setRange? table name min max).map (·.1)).getD b
  | .inherit table other => b.inherit table other

/-- What a row of actions makes of a bank. -/
def run (b : Bank) (actions : List Action) : Bank := actions.foldl act b

/-- **Every letter of every table has a cell of its own,** and the cell fits. -/
structure Separate (b : Bank) : Prop where
  /-- Places lead to cells. -/
  lt_size {t : Nat} {c : Char} {i : Nat} : (b.placesOf t).get? c = some i → i < b.cells.size
  /-- Two letters, of one table or of two, do not lead to one cell. -/
  unique {t u : Nat} {c d : Char} {i : Nat} :
    (b.placesOf t).get? c = some i → (b.placesOf u).get? d = some i → t = u ∧ c = d
  fits {t : Nat} {c : Char} {cell : Cell} : b.cell? t c = some cell → cell.Fits c

theorem separate_empty : empty.Separate := ⟨nofun, nofun, nofun⟩

section

variable {b : Bank} {t : Nat} {c : Char}

/-! ### What the letters find -/

/-- A letter of a table finds the cell at its place. -/
theorem Separate.exists_cell (h : b.Separate) {i : Nat} (hi : (b.placesOf t).get? c = some i) :
    ∃ cell, b.cells[i]? = some cell ∧ b.cell? t c = some cell := by
  have hcell := Array.getElem?_eq_getElem (h.lt_size hi)
  refine ⟨_, hcell, ?_⟩
  rw [cell?, hi, Option.bind_some, hcell]

/-- A letter finds nothing only if the table does not have it. -/
theorem Separate.cell?_eq_none_iff (h : b.Separate) :
    b.cell? t c = none ↔ (b.placesOf t).get? c = none := by
  cases hi : (b.placesOf t).get? c with
  | none => exact iff_of_true (by rw [cell?, hi, Option.bind_none]) rfl
  | some i =>
    obtain ⟨cell, -, hcell⟩ := h.exists_cell hi
    rw [hcell]
    exact iff_of_false nofun nofun

/-- **A table reads as its letters find it.** -/
theorem Separate.get?_table (h : b.Separate) (t : Nat) (c : Char) :
    (b.table t).get? c = (b.cell? t c).map (·.slider) := by
  rw [table, Keyed.get?_mapValues]
  cases hi : (b.placesOf t).get? c with
  | none => rw [h.cell?_eq_none_iff.mpr hi, Option.map_none, Option.map_none]
  | some i =>
    obtain ⟨cell, hplace, hcell⟩ := h.exists_cell hi
    rw [hcell, Option.map_some, Option.map_some, hplace, Option.map_some, Option.getD_some]

/-! ### New letters -/

/-- A letter that the table has is not added again. -/
theorem addLetter_eq_self {i : Nat} (hi : (b.placesOf t).get? c = some i) :
    b.addLetter t c = b := by
  unfold addLetter
  dsimp only
  rw [Keyed.contains, hi, Option.isSome_some, if_pos rfl]

theorem addLetter_eq (hnew : (b.placesOf t).get? c = none) : b.addLetter t c =
    ⟨b.cells.push ⟨c, standard⟩, b.places.insert t ((b.placesOf t).insert c b.cells.size)⟩ := by
  unfold addLetter
  dsimp only
  rw [Keyed.contains, hnew, Option.isSome_none, if_neg Bool.false_ne_true]

/-- A new letter has the next place, and the others keep theirs. -/
theorem get?_placesOf_addLetter (hnew : (b.placesOf t).get? c = none) (u : Nat) (d : Char) :
    ((b.addLetter t c).placesOf u).get? d =
      if u = t ∧ d = c then some b.cells.size else (b.placesOf u).get? d := by
  have hplaces : (b.addLetter t c).placesOf u =
      if u = t then (b.placesOf t).insert c b.cells.size else b.placesOf u := by
    rw [addLetter_eq hnew, placesOf]
    dsimp only
    split
    · next hu => rw [hu, Keyed.get?_insert_self, Option.getD_some]
    · next hu => rw [Keyed.get?_insert_of_ne _ _ hu, placesOf]
  rw [hplaces]
  by_cases hu : u = t
  · by_cases hd : d = c
    · rw [if_pos hu, if_pos ⟨hu, hd⟩, hd, Keyed.get?_insert_self]
    · rw [if_pos hu, if_neg fun h => hd h.2, Keyed.get?_insert_of_ne _ _ hd, hu]
  · rw [if_neg hu, if_neg fun h => hu h.1]

/-- **One letter is added,** with a cell made for it, unless the table has the letter. -/
theorem Separate.cell?_addLetter (h : b.Separate) (t : Nat) (c : Char) (u : Nat) (d : Char) :
    (b.addLetter t c).cell? u d =
      (b.cell? u d).or (if u = t ∧ d = c then some ⟨c, standard⟩ else none) := by
  cases hnew : (b.placesOf t).get? c with
  | some i =>
    obtain ⟨cell, -, hcell⟩ := h.exists_cell hnew
    rw [addLetter_eq_self hnew]
    split
    · next heq => rw [heq.1, heq.2, hcell, Option.some_or]
    · rw [Option.or_none]
  | none =>
    rw [cell?, get?_placesOf_addLetter hnew, addLetter_eq hnew]
    dsimp only
    split
    · next heq =>
      rw [heq.1, heq.2, h.cell?_eq_none_iff.mpr hnew, Option.none_or, Option.bind_some,
        Array.getElem?_push_size]
    · rw [Option.or_none]
      cases hi : (b.placesOf u).get? d with
      | none => rw [Option.bind_none, h.cell?_eq_none_iff.mpr hi]
      | some i =>
        obtain ⟨cell, hplace, hcell⟩ := h.exists_cell hi
        rw [Option.bind_some, hcell, Array.getElem?_push_lt (h.lt_size hi),
          ← Array.getElem?_eq_getElem, hplace]

theorem Separate.addLetter (h : b.Separate) (t : Nat) (hc : isName c = true) :
    (b.addLetter t c).Separate := by
  cases hnew : (b.placesOf t).get? c with
  | some i =>
    rw [addLetter_eq_self hnew]
    exact h
  | none =>
    refine ⟨fun {u d i} hi => ?_, fun {u w d e i} hi hj => ?_, fun {u d cell} hcell => ?_⟩
    · have hsize : (b.addLetter t c).cells.size = b.cells.size + 1 := by
        rw [addLetter_eq hnew, Array.size_push]
      rw [get?_placesOf_addLetter hnew] at hi
      rw [hsize]
      split at hi
      · exact Option.some.inj hi ▸ Nat.lt_succ_self _
      · exact Nat.lt_succ_of_lt (h.lt_size hi)
    · -- the next place is nobody else's, as it is behind all cells
      rw [get?_placesOf_addLetter hnew] at hi hj
      split at hi <;> split at hj
      · next hud hwe => exact ⟨hud.1.trans hwe.1.symm, hud.2.trans hwe.2.symm⟩
      · exact absurd (h.lt_size hj) (Option.some.inj hi ▸ Nat.lt_irrefl _)
      · exact absurd (h.lt_size hi) (Option.some.inj hj ▸ Nat.lt_irrefl _)
      · exact h.unique hi hj
    · rw [h.cell?_addLetter, Option.or_eq_some_iff] at hcell
      rcases hcell with hold | ⟨-, hadded⟩
      · exact h.fits hold
      · split at hadded
        · next hud =>
          obtain rfl := Option.some.inj hadded
          exact ⟨hud.2.symm, hud.2 ▸ hc, standard_min_lt_max⟩
        · cases hadded

/-- **Letters are added,** and a cell that is there stays as it is. -/
theorem Separate.register (h : b.Separate) (t : Nat) {names : List Char}
    (hnames : ∀ c ∈ names, isName c = true) : (b.register t names).Separate ∧
      ∀ u d, (b.register t names).cell? u d =
        (b.cell? u d).or (if u = t ∧ d ∈ names then some ⟨d, standard⟩ else none) := by
  induction names generalizing b with
  | nil => exact ⟨h, fun u d => by simp [Bank.register]⟩
  | cons c names ih =>
    obtain ⟨hseparate, hcells⟩ := ih (h.addLetter t (hnames c List.mem_cons_self))
      fun d hd => hnames d (List.mem_cons_of_mem c hd)
    refine ⟨hseparate, fun u d => (hcells u d).trans ?_⟩
    rw [h.cell?_addLetter, Option.or_assoc]
    congr 1
    by_cases hu : u = t
    · by_cases hd : d = c
      · simp [hu, hd]
      · simp [hu, hd]
    · simp [hu]

/-- A table with new letters reads as any table to which they are added. -/
theorem Separate.table_register (h : b.Separate) (t : Nat) {names : List Char}
    (hnames : ∀ c ∈ names, isName c = true) :
    (b.register t names).table t = (b.table t).register names := by
  obtain ⟨hseparate, hcells⟩ := h.register t hnames
  refine Keyed.ext_get? fun c => ?_
  rw [hseparate.get?_table, hcells, Table.get?_register, h.get?_table]
  cases b.cell? t c with
  | some cell => rfl
  | none => by_cases hc : c ∈ names <;> simp [hc]

/-! ### Sliders that move -/

/-- The slider of a letter is changed, if the table has the letter. -/
def update (b : Bank) (t : Nat) (c : Char) (f : Parameter → Parameter) : Bank :=
  (b.update? t c f).getD b

theorem placesOf_update (b : Bank) (t : Nat) (c : Char) (f : Parameter → Parameter) :
    (b.update t c f).placesOf = b.placesOf ∧ (b.update t c f).cells.size = b.cells.size := by
  unfold update update?
  cases (b.placesOf t).get? c with
  | none => exact ⟨rfl, rfl⟩
  | some i => exact ⟨rfl, Array.size_modify⟩

/-- **One slider is changed,** and no other letter sees it. -/
theorem Separate.cell?_update (h : b.Separate) (t : Nat) (c : Char) (f : Parameter → Parameter)
    (u : Nat) (d : Char) : (b.update t c f).cell? u d =
      if u = t ∧ d = c then (b.cell? t c).map (·.tune f) else b.cell? u d := by
  unfold update update?
  cases hi : (b.placesOf t).get? c with
  | none =>
    have hnone := h.cell?_eq_none_iff.mpr hi
    rw [Option.map_none, Option.getD_none]
    split
    · next heq => rw [heq.1, heq.2, hnone, Option.map_none]
    · rfl
  | some i =>
    obtain ⟨cell, hplace, hcell⟩ := h.exists_cell hi
    rw [Option.map_some, Option.getD_some]
    show (((b.placesOf u).get? d).bind fun j => (b.cells.modify i (·.tune f))[j]?) = _
    split
    · next heq =>
      rw [heq.1, heq.2, hi, Option.bind_some, Array.getElem?_modify, if_pos rfl, hplace, hcell]
    · next hne =>
      cases hj : (b.placesOf u).get? d with
      | none => rw [Option.bind_none, h.cell?_eq_none_iff.mpr hj]
      | some j =>
        -- the letters differ, so their places do
        have hij : i ≠ j := by
          rintro rfl
          obtain ⟨hu, hd⟩ := h.unique hj hi
          exact hne ⟨hu, hd⟩
        rw [Option.bind_some, Array.getElem?_modify, if_neg hij, cell?, hj, Option.bind_some]

theorem Separate.update (h : b.Separate) {f : Parameter → Parameter}
    (hf : ∀ cell, b.cell? t c = some cell → (f cell.slider).min < (f cell.slider).max) :
    (b.update t c f).Separate := by
  obtain ⟨hplaces, hsize⟩ := placesOf_update b t c f
  refine ⟨?_, ?_, fun {u d cell} hcell => ?_⟩
  · rw [hplaces, hsize]
    exact h.lt_size
  · rw [hplaces]
    exact h.unique
  · rw [h.cell?_update] at hcell
    split at hcell
    · next heq =>
      obtain ⟨old, hold, rfl⟩ := Option.map_eq_some_iff.mp hcell
      have hfits := h.fits hold
      rw [heq.2]
      exact ⟨hfits.name_eq, hfits.isName, hf old hold⟩
    · exact h.fits hcell

/-- A range that is set is one; else nothing is done. -/
theorem act_setRange (b : Bank) (t : Nat) (c : Char) (min max : Float) :
    b.act (.setRange t c min max) = b ∨
      ∃ p : Parameter, p.min < p.max ∧ b.act (.setRange t c min max) = b.update t c fun _ => p := by
  have hact : b.act (.setRange t c min max) =
      ((b.setRange? t c min max).map (·.1)).getD b := rfl
  rw [hact, setRange?]
  cases b.cell? t c with
  | none => exact .inl rfl
  | some cell =>
    rw [Option.map_some, Option.map_some, Option.getD_some]
    cases hp : cell.slider.setRange? min max with
    | none => exact .inl rfl
    | some p => exact .inr ⟨p, min_lt_max_of_setRange? hp, rfl⟩

/-! ### Sliders that are taken over -/

/-- What a letter finds after its table has taken over the sliders of another one: what it finds in
the other table, if it finds anything there. -/
def taken (b : Bank) (t other : Nat) (c : Char) : Option Cell :=
  (b.cell? t c).map fun cell => (b.cell? other c).getD cell

/-- **The cell of one letter takes over a slider,** and its range goes along. -/
theorem Separate.inheritLetter (h : b.Separate) (t other : Nat) (c : Char) :
    (b.inheritLetter t other c).Separate ∧ ∀ u d, (b.inheritLetter t other c).cell? u d =
      if u = t ∧ d = c then b.taken t other c else b.cell? u d := by
  unfold Bank.inheritLetter taken
  cases hold : b.cell? other c with
  | none =>
    refine ⟨h, fun u d => ?_⟩
    dsimp only [Option.getD_none]
    split
    · next heq => rw [heq.1, heq.2, Option.map_id']
    · rfl
  | some old =>
    have hfits := h.fits hold
    refine ⟨h.update fun cell _ => ?_, fun u d => (h.cell?_update t c _ u d).trans ?_⟩
    · rw [inherit_of_lt hfits.min_lt_max]
      exact hfits.min_lt_max
    · congr 1
      refine Option.map_congr fun cell hcell => ?_
      exact (h.fits hcell).tune_inherit hfits

/-- Nobody sees that a letter took over a slider when sliders are taken over anyway. -/
theorem Separate.taken_inheritLetter (h : b.Separate) (t other : Nat) (c d : Char) :
    (b.inheritLetter t other c).taken t other d = b.taken t other d := by
  obtain ⟨-, hcells⟩ := h.inheritLetter t other c
  by_cases hd : d = c
  · subst hd
    rw [taken, hcells t d, if_pos ⟨rfl, rfl⟩, hcells other d]
    unfold taken
    split
    · next heq =>
      rw [heq.1]
      cases b.cell? t d <;> rfl
    · cases b.cell? t d <;> cases b.cell? other d <;> rfl
  · rw [taken, hcells, hcells, if_neg fun heq => hd heq.2, if_neg fun heq => hd heq.2, taken]

/-- **The sliders of a table are taken over** with their ranges. -/
theorem Separate.inherit (h : b.Separate) (t other : Nat) : (b.inherit t other).Separate ∧
    ∀ u d, (b.inherit t other).cell? u d = if u = t then b.taken t other d else b.cell? u d := by
  -- letter by letter, as far as the letters of the table go
  have hletters (names : List Char) {b : Bank} (h : b.Separate) :
      (names.foldl (fun b c => b.inheritLetter t other c) b).Separate ∧
        ∀ u d, (names.foldl (fun b c => b.inheritLetter t other c) b).cell? u d =
          if u = t ∧ d ∈ names then b.taken t other d else b.cell? u d := by
    induction names generalizing b with
    | nil => exact ⟨h, fun u d => by rw [if_neg fun heq => List.not_mem_nil heq.2]; rfl⟩
    | cons c names ih =>
      obtain ⟨hfirst, hcells⟩ := h.inheritLetter t other c
      obtain ⟨hseparate, hrest⟩ := ih hfirst
      refine ⟨hseparate, fun u d => (hrest u d).trans ?_⟩
      rw [h.taken_inheritLetter, hcells]
      by_cases hu : u = t
      · by_cases hd : d = c
        · simp [hu, hd]
        · simp [hu, hd]
      · simp [hu]
  obtain ⟨hseparate, hcells⟩ := hletters (b.placesOf t).keys h
  refine ⟨hseparate, fun u d => (hcells u d).trans ?_⟩
  by_cases hu : u = t
  · by_cases hd : d ∈ (b.placesOf t).keys
    · rw [if_pos ⟨hu, hd⟩, if_pos hu]
    · -- what the table does not have takes over nothing
      have hnone := h.cell?_eq_none_iff.mpr (Keyed.not_mem_keys.mp hd)
      rw [if_neg fun heq => hd heq.2, if_pos hu, hu, taken, hnone, Option.map_none]
  · rw [if_neg fun heq => hu heq.1, if_neg hu]

/-- Tables of a bank take over sliders as tables that stand for themselves do. -/
theorem Separate.table_inherit (h : b.Separate) (t other : Nat) :
    (b.inherit t other).table t = (b.table t).inherit (b.table other) := by
  obtain ⟨hseparate, hcells⟩ := h.inherit t other
  refine Keyed.ext_get? fun c => ?_
  rw [hseparate.get?_table, hcells, if_pos rfl, Table.inherit, Keyed.get?_mapValues, h.get?_table,
    h.get?_table, taken, Option.map_map, Option.map_map]
  refine Option.map_congr fun cell _ => ?_
  cases hold : b.cell? other c with
  | none => rfl
  | some old => exact (inherit_of_lt (h.fits hold).min_lt_max cell.slider).symm

/-! ### Runs -/

/-- **Whatever is done to a table, all letters keep cells of their own.** -/
theorem Separate.act (h : b.Separate) (a : Action) : (b.act a).Separate := by
  cases a with
  | detect t text => exact (h.register t fun c hc => (of_mem_letters hc).2).1
  | set t c value => exact h.update fun cell hcell => (h.fits hcell).min_lt_max
  | setRange t c min max =>
    rcases act_setRange b t c min max with heq | ⟨p, hp, heq⟩
    · rwa [heq]
    · rw [heq]
      exact h.update fun _ _ => hp
  | inherit t other => exact (h.inherit t other).1

theorem Separate.run (h : b.Separate) (actions : List Action) : (b.run actions).Separate := by
  induction actions generalizing b with
  | nil => exact h
  | cons a actions ih => exact ih (h.act a)

end

theorem lower_of_isName {c : Char} (h : Parameter.isName c = true) :
    ('a' ≤ c ∧ c ≤ 'z') ∧ c ≠ 'x' ∧ c ≠ 'y' ∧ c ≠ 'e' := by
  unfold isName at h
  simp only [Bool.and_eq_true, bne_iff_ne] at h
  obtain ⟨⟨⟨hlower, hx⟩, hy⟩, he⟩ := h
  change (decide ('a' ≤ c) && decide (c ≤ 'z')) = true at hlower
  rw [Bool.and_eq_true, decide_eq_true_iff, decide_eq_true_iff] at hlower
  exact ⟨hlower, hx, hy, he⟩

/-- **To take over a table is to take over all of it.** Whatever was done to the tables of a bank,
each cell stands under its own letter, which is a small one but none of `x`, `y` and `e`, and the
range of each slider has a lower and an upper end. Letters that are found in a text get a new cell
where there is none, and a cell that is there stays. And a table that takes over the sliders of
another one finds at each letter of both what the other table finds there, value and range; at
every other letter it finds what it found before, and so does every other table at all letters. -/
theorem run_inherits (actions : List Action) :
    let b := empty.run actions
    (∀ t c cell, b.cell? t c = some cell → cell.name = c ∧
      (('a' ≤ c ∧ c ≤ 'z') ∧ c ≠ 'x' ∧ c ≠ 'y' ∧ c ≠ 'e') ∧ cell.slider.min < cell.slider.max ∧
        cell.slider.min.isNaN = false ∧ cell.slider.max.isNaN = false) ∧
    (∀ t text u c, (b.act (.detect t text)).cell? u c =
      (b.cell? u c).or (if u = t ∧ c ∈ letters text.toList then some ⟨c, standard⟩ else none)) ∧
    (∀ t other u c, (b.act (.inherit t other)).cell? u c =
      if u = t then (b.cell? t c).map fun cell => (b.cell? other c).getD cell else b.cell? u c) ∧
    ∀ t, (∀ c, (b.table t).get? c = (b.cell? t c).map (·.slider)) ∧
      (∀ text, (b.act (.detect t text)).table t = (b.table t).register (letters text.toList)) ∧
      ∀ other, (b.act (.inherit t other)).table t = (b.table t).inherit (b.table other) := by
  intro b
  have h : b.Separate := separate_empty.run actions
  have hnames (text : String) : ∀ c ∈ letters text.toList, isName c = true :=
    fun c hc => (of_mem_letters hc).2
  refine ⟨fun t c cell hcell => ?_, fun t text => (h.register t (hnames text)).2,
    fun t other => (h.inherit t other).2, fun t => ⟨h.get?_table t, fun text => ?_, ?_⟩⟩
  · have hfits := h.fits hcell
    exact ⟨hfits.name_eq, lower_of_isName hfits.isName, hfits.min_lt_max,
      Double.isNaN_eq_false_of_lt hfits.min_lt_max⟩
  · exact h.table_register t (hnames text)
  · exact h.table_inherit t

end Bank

end CurvePlot.Parameter
