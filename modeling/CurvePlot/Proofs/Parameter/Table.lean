import CurvePlot.Parameter
import CurvePlot.Proofs.Double.Nearest
/-!
# Tables of sliders

What the operations on a table do to its letters: new ones start with the standard slider
(`get?_register`), a slider is moved at its own letter only (`exists_set?`).

A range has its lower end below its upper end. A slider has such a range from the start, and none
is set that is not one. It matters when a slider is taken over: the range goes along only if it is
one, so a slider with a range is taken over as a whole (`inherit_of_lt`).
-/

namespace CurvePlot

namespace Double

/-- No end of a range is undefined. -/
theorem isNaN_eq_false_of_lt {v w : Float} (h : v < w) : v.isNaN = false ∧ w.isNaN = false := by
  have hdefined {u : Float} (hu : u.toModel.unpack ≠ .notANumber) : u.isNaN = false := by
    show u.toModel.unpack.isNaN = false
    cases hmodel : u.toModel.unpack with
    | notANumber => exact absurd hmodel hu
    | infinity | zero | finite => rfl
  exact (isNumber_of_lt h).imp hdefined hdefined

end Double

namespace Parameter

/-! ### Ranges -/

theorem standard_min_lt_max : standard.min < standard.max := by
  decide +kernel

theorem min_lt_max_of_setRange? {p q : Parameter} {min max : Float}
    (h : p.setRange? min max = some q) : q.min < q.max := by
  unfold setRange? at h
  split at h
  · next hlt =>
    obtain rfl := Option.some.inj h
    exact hlt
  · cases h

/-- A slider is taken over as a whole, if its range is one. -/
theorem inherit_of_lt {old : Parameter} (h : old.min < old.max) (p : Parameter) :
    p.inherit old = old := by
  unfold inherit setRange?
  dsimp only
  rw [if_pos h]
  rfl

namespace Table

variable {t : Table} {c : Char}

theorem mem_keys_iff : c ∈ t.keys ↔ t.contains c = true := by
  rw [Keyed.mem_keys, Keyed.contains, Option.isSome_iff_exists]

/-! ### New letters -/

theorem get?_insertIfNew (t : Table) (d : Char) (p : Parameter) (c : Char) :
    (Keyed.insertIfNew t d p).get? c = (t.get? c).or (if c = d then some p else none) := by
  unfold Keyed.insertIfNew
  by_cases hc : c = d
  · rw [if_pos hc, hc, Keyed.contains]
    cases hd : t.get? d with
    | some q => rw [Option.isSome_some, if_pos rfl, hd, Option.some_or]
    | none =>
      rw [Option.isSome_none, if_neg Bool.false_ne_true, Keyed.get?_insert_self, Option.none_or]
  · rw [if_neg hc, Option.or_none]
    split
    · rfl
    · exact Keyed.get?_insert_of_ne t p hc

/-- **New letters get the standard slider,** and the others keep theirs. -/
theorem get?_register (t : Table) (names : List Char) (c : Char) :
    (t.register names).get? c = (t.get? c).or (if c ∈ names then some standard else none) := by
  induction names generalizing t with
  | nil =>
    rw [if_neg List.not_mem_nil, Option.or_none]
    rfl
  | cons d names ih =>
    have hstep : t.register (d :: names) =
        Table.register (Keyed.insertIfNew t d standard) names := rfl
    rw [hstep, ih, get?_insertIfNew, Option.or_assoc]
    by_cases hc : c = d <;> simp [hc]

theorem contains_register (t : Table) (names : List Char) :
    (t.register names).contains c = true ↔ t.contains c = true ∨ c ∈ names := by
  rw [Keyed.contains, get?_register, Option.isSome_or, Bool.or_eq_true, Keyed.contains]
  by_cases hc : c ∈ names <;> simp [hc]

/-- If there were standard sliders only, there still are. -/
theorem eq_standard_of_register {names : List Char} (h : ∀ p, t.get? c = some p → p = standard)
    {p : Parameter} (hp : (t.register names).get? c = some p) : p = standard := by
  rw [get?_register, Option.or_eq_some_iff] at hp
  rcases hp with hold | ⟨-, hnew⟩
  · exact h p hold
  · split at hnew
    · exact (Option.some.inj hnew).symm
    · cases hnew

/-! ### Sliders that move -/

/-- To move a slider is to change the value at its letter. -/
theorem eq_modify_of_set? {moved : Table} {v : Float} (h : t.set? c v = some moved) :
    moved = t.modify c fun p => { p with value := v } := by
  unfold set? at h
  split at h
  · exact (Option.some.inj h).symm
  · cases h

/-- **Moving a slider is seen at its own letter** and nowhere else. -/
theorem exists_set? (h : t.contains c = true) (v : Float) :
    ∃ moved, t.set? c v = some moved ∧ moved.value c = v ∧
      ∀ d, d ≠ c → moved.value d = t.value d := by
  obtain ⟨p, hp⟩ := Option.isSome_iff_exists.mp h
  refine ⟨t.modify c fun p => { p with value := v }, if_pos h, ?_, fun d hd => ?_⟩
  · rw [value, Keyed.get?_modify_self, hp]
    rfl
  · rw [value, Keyed.get?_modify_of_ne t _ hd, value]

end Table

end Parameter

end CurvePlot
