import CurvePlot.Keyed
import Mathlib.Data.List.Sort
/-!
# Maps with the same look-ups

A map is its look-ups: since the order of the entries is fixed, maps that answer every
look-up alike are equal (`Keyed.ext_get?`). So what writing does to a map as a whole is
shown key by key.
-/

namespace CurvePlot

namespace Keyed

variable {κ α : Type} [Key κ] {m n : Keyed κ α} {k : κ} {v : α}

/-- The order of the entries is no matter of choice: maps with the same look-ups are
equal. -/
theorem ext_get? (h : ∀ k, m.get? k = n.get? k) : m = n := by
  -- the entries are sorted by the rank of their keys, so to have the same ones is to be equal
  let below (a b : κ × α) : Prop := Key.rank a.1 < Key.rank b.1
  have irrefl : Std.Irrefl below := ⟨fun _ => Nat.lt_irrefl _⟩
  have antisymm : Std.Antisymm below := ⟨fun _ _ hab hba => absurd hba (Nat.lt_asymm hab)⟩
  refine ext (m.ascending.eq_of_mem_iff n.ascending fun e => ?_)
  rw [← get?_eq_some_iff, ← get?_eq_some_iff, h]

/-- What is not among the keys is not found. -/
theorem not_mem_keys : k ∉ m.keys ↔ m.get? k = none := by
  rw [mem_keys, not_exists, Option.eq_none_iff_forall_ne_some]

/-- Maps have the same keys if they find nothing at the same keys, whatever their values. -/
theorem keys_eq_of_get?_eq_none_iff {β : Type} {n : Keyed κ β}
    (h : ∀ k, m.get? k = none ↔ n.get? k = none) : m.keys = n.keys := by
  -- without their values the maps have the same look-ups
  have hsame : m.mapValues (fun _ _ => ()) = n.mapValues fun _ _ => () := by
    refine ext_get? fun k => Option.ext fun _ => ?_
    rw [get?_mapValues, get?_mapValues]
    cases hm : m.get? k with
    | none =>
      rw [(h k).mp hm]
      exact Iff.rfl
    | some v =>
      have hn : n.get? k ≠ none := by
        intro hnone
        rw [(h k).mpr hnone] at hm
        cases hm
      obtain ⟨w, hw⟩ := Option.ne_none_iff_exists'.mp hn
      rw [hw]
      rfl
  rw [← keys_mapValues (fun _ _ => ()) m, hsame, keys_mapValues]

/-- To take away what is not there does nothing. -/
theorem erase_eq_self (h : m.get? k = none) : m.erase k = m := by
  refine ext_get? fun j => ?_
  rw [get?_erase]
  split
  · next hkj => rw [← Key.rank_inj hkj, h]
  · rfl

/-- Maps that differ at one key only are the same without it. -/
theorem erase_congr (h : ∀ j, j ≠ k → m.get? j = n.get? j) : m.erase k = n.erase k := by
  refine ext_get? fun j => ?_
  by_cases hj : j = k
  · rw [hj, get?_erase_self, get?_erase_self]
  · rw [get?_erase_of_ne m hj, get?_erase_of_ne n hj, h j hj]

/-- The keys that are left are those of another rank. -/
theorem keys_erase (m : Keyed κ α) (k : κ) :
    (m.erase k).keys = m.keys.filter fun j => Key.rank j ≠ Key.rank k := by
  rw [keys, keys, erase, List.filter_map]
  rfl

/-- To change a value that is there is to write the new one. -/
theorem modify_eq_insert (f : α → α) (h : m.get? k = some v) : m.modify k f = m.insert k (f v) := by
  refine ext_get? fun j => ?_
  by_cases hj : j = k
  · rw [hj, get?_modify_self, get?_insert_self, h, Option.map_some]
  · rw [get?_modify_of_ne m f hj, get?_insert_of_ne m (f v) hj]

/-- Two changes one after the other are one change. -/
theorem modify_modify (f g : α → α) : (m.modify k f).modify k g = m.modify k (g ∘ f) := by
  refine ext_get? fun j => ?_
  by_cases hj : j = k
  · rw [hj, get?_modify_self, get?_modify_self, get?_modify_self, Option.map_map]
  · rw [get?_modify_of_ne _ _ hj, get?_modify_of_ne _ _ hj, get?_modify_of_ne _ _ hj]

/-- To write what is there is to write nothing. -/
theorem modify_eq_self {f : α → α} (h : ∀ v, m.get? k = some v → f v = v) : m.modify k f = m := by
  refine ext_get? fun j => ?_
  by_cases hj : j = k
  · rw [hj, get?_modify_self]
    -- what is there is found, and the change leaves it as it is
    cases hv : m.get? k with
    | none => rfl
    | some v => rw [Option.map_some, h v hv]
  · exact get?_modify_of_ne m f hj

/-- Changes that do the same to the value that is there are one change. -/
theorem modify_congr {f g : α → α} (h : m.get? k = some v) (hfg : f v = g v) :
    m.modify k f = m.modify k g := by
  rw [modify_eq_insert f h, modify_eq_insert g h, hfg]

/-- Of two values put in at one key, the second stays. -/
theorem insert_insert (v w : α) : (m.insert k v).insert k w = m.insert k w := by
  refine ext_get? fun j => ?_
  rw [get?_insert, get?_insert, get?_insert]
  split <;> rfl

/-- A value that was just put in is changed by putting in another. -/
theorem modify_insert (f : α → α) (v : α) : (m.insert k v).modify k f = m.insert k (f v) := by
  rw [modify_eq_insert f (get?_insert_self m k v), insert_insert]

/-- To write over a value makes no new key. -/
theorem keys_insert_of_some (h : m.get? k = some v) (w : α) : (m.insert k w).keys = m.keys := by
  rw [← modify_eq_insert (fun _ => w) h, keys_modify]

/-- No key occurs twice. -/
theorem nodup_keys (m : Keyed κ α) : m.keys.Nodup :=
  m.keys_ascending.imp fun hlt heq => Nat.ne_of_lt hlt (congrArg Key.rank heq)

/-- Where the keys are numbers in a row, an entry stands at the place that its key tells. -/
theorem getElem?_entries {m : Keyed Nat α} {n : Nat} (h : m.keys = List.range n) (i : Nat) :
    m.entries[i]? = (m.get? i).map fun v => (i, v) := by
  -- the key of an entry is the number of the entries before it
  have hplace {j : Nat} {e : Nat × α} (he : m.entries[j]? = some e) : e.1 = j := by
    have hkey : m.keys[j]? = some e.1 := by rw [keys, List.getElem?_map, he, Option.map_some]
    rw [h] at hkey
    obtain ⟨hj, hkey⟩ := List.getElem?_eq_some_iff.mp hkey
    exact hkey.symm.trans (List.getElem_range hj)
  refine Option.ext fun e => ?_
  rw [Option.map_eq_some_iff]
  constructor
  · intro he
    obtain rfl : e.1 = i := hplace he
    exact ⟨e.2, get?_eq_some_iff.mpr (List.mem_of_getElem? he), rfl⟩
  · rintro ⟨v, hv, rfl⟩
    obtain ⟨j, hj⟩ := List.mem_iff_getElem?.mp (get?_eq_some_iff.mp hv)
    obtain rfl : i = j := hplace hj
    exact hj

/-- Where the keys are numbers in a row, to look up is to count. -/
theorem get?_eq_getElem? {m : Keyed Nat α} {n : Nat} (h : m.keys = List.range n) (i : Nat) :
    m.get? i = m.values[i]? := by
  rw [values, List.getElem?_map, getElem?_entries h, Option.map_map]
  exact Option.map_id'.symm

/-- Nobody misses an entry that does not show in what is looked at. -/
theorem filterMap_values_erase {β : Type} {g : α → Option β}
    (h : ∀ v, m.get? k = some v → g v = none) :
    (m.erase k).values.filterMap g = m.values.filterMap g := by
  -- by entries: one that is taken away has the key, so it would not show
  have hentries (es : List (κ × α)) (hes : ∀ e ∈ es, Key.rank e.1 = Key.rank k → g e.2 = none) :
      (es.filter fun e => Key.rank e.1 ≠ Key.rank k).filterMap (g ·.2) = es.filterMap (g ·.2) := by
    rw [List.filterMap_filter]
    refine List.filterMap_congr fun e he => ?_
    by_cases hk : Key.rank e.1 = Key.rank k
    · simp [hk, hes e he hk]
    · simp [hk]
  rw [values, values, List.filterMap_map, List.filterMap_map]
  refine hentries m.entries fun e he hk => h e.2 (get?_eq_some_iff.mpr ?_)
  rw [← Key.rank_inj hk]
  exact he

/-- An entry with a higher key than all others comes last. -/
theorem entries_insert_of_lt (h : ∀ j ∈ m.keys, Key.rank j < Key.rank k) (v : α) :
    (m.insert k v).entries = m.entries ++ [(k, v)] := by
  -- the new entry passes all the others on its way to the end
  have hentries (es : List (κ × α)) (hes : ∀ e ∈ es, Key.rank e.1 < Key.rank k) :
      insertEntry k v es = es ++ [(k, v)] := by
    induction es with
    | nil => rfl
    | cons e es ih =>
      have he := hes e List.mem_cons_self
      rw [insertEntry, if_neg (by omega), if_neg (by omega),
        ih fun d hd => hes d (List.mem_cons_of_mem e hd)]
      rfl
  exact hentries m.entries fun e he => h e.1 (List.mem_map_of_mem he)

/-- Its value comes last too, -/
theorem values_insert_of_lt (h : ∀ j ∈ m.keys, Key.rank j < Key.rank k) (v : α) :
    (m.insert k v).values = m.values ++ [v] := by
  rw [values, entries_insert_of_lt h, List.map_append]
  rfl

/-- and so does its key. -/
theorem keys_insert_of_lt (h : ∀ j ∈ m.keys, Key.rank j < Key.rank k) (v : α) :
    (m.insert k v).keys = m.keys ++ [k] := by
  rw [keys, entries_insert_of_lt h, List.map_append]
  rfl

end Keyed

end CurvePlot
