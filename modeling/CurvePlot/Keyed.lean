/-!
# Finite maps in key order

A `Keyed κ α` is a finite map from keys to values, kept as the list of its
entries in strictly ascending order of the keys. The order is part of the type,
so two maps with the same entries are equal, and whatever is listed from one is
listed by ascending key.

Main statements:

* `Keyed.get?_insert` and `Keyed.get?_erase` say what the two writing operations
  do to every look-up;
* `Keyed.get?_eq_some_iff` says that a look-up finds exactly what is listed;
* `Keyed.keys_ascending` says that the keys are listed in strictly ascending
  order.
-/

namespace CurvePlot

/-- A type whose values are ordered through an injective **rank**. -/
class Key (κ : Type) where
  /-- The place of a key in the order. -/
  rank : κ → Nat
  /-- Keys of one rank are the same key. -/
  rank_inj : ∀ {a b : κ}, rank a = rank b → a = b

instance : Key Nat where
  rank n := n
  rank_inj h := h

instance : Key Char where
  rank c := c.toNat
  rank_inj h := Char.ext (UInt32.toNat_inj.mp h)

@[simp]
theorem Key.rank_nat (n : Nat) : Key.rank n = n := rfl

/-- A finite map, kept as its entries in strictly ascending key order. -/
structure Keyed (κ α : Type) [Key κ] where
  /-- The entries, lowest key first. -/
  entries : List (κ × α)
  /-- Every entry has a lower key than the entries behind it. -/
  ascending : entries.Pairwise fun a b => Key.rank a.1 < Key.rank b.1

namespace Keyed

variable {κ α β : Type} [Key κ]

@[ext]
theorem ext {m n : Keyed κ α} (h : m.entries = n.entries) : m = n := by
  cases m; cases n; cases h; rfl

def empty : Keyed κ α := ⟨[], .nil⟩

instance : Inhabited (Keyed κ α) := ⟨empty⟩

/-- The keys, lowest first. -/
def keys (m : Keyed κ α) : List κ := m.entries.map (·.1)

/-- The values, by ascending key. -/
def values (m : Keyed κ α) : List α := m.entries.map (·.2)

def size (m : Keyed κ α) : Nat := m.entries.length

def isEmpty (m : Keyed κ α) : Bool := m.entries.isEmpty

/-- The value at a key in a list of entries. -/
def lookup (k : κ) : List (κ × α) → Option α
  | [] => none
  | e :: es => if Key.rank e.1 = Key.rank k then some e.2 else lookup k es

/-- The value at a key. -/
def get? (m : Keyed κ α) (k : κ) : Option α := lookup k m.entries

/-- Whether the key has a value. -/
def contains (m : Keyed κ α) (k : κ) : Bool := (m.get? k).isSome

/-! ### Writing -/

/-- Puts an entry in its place, over an entry of the same key. -/
def insertEntry (k : κ) (v : α) : List (κ × α) → List (κ × α)
  | [] => [(k, v)]
  | e :: es =>
    if Key.rank k < Key.rank e.1 then (k, v) :: e :: es
    else if Key.rank k = Key.rank e.1 then (k, v) :: es
    else e :: insertEntry k v es

theorem mem_insertEntry {k : κ} {v : α} {es : List (κ × α)} {e : κ × α}
    (h : e ∈ insertEntry k v es) : e = (k, v) ∨ e ∈ es := by
  induction es with
  | nil => simpa [insertEntry] using h
  | cons d ds ih =>
    simp only [insertEntry] at h
    split at h
    · simpa using h
    · split at h
      · rcases List.mem_cons.mp h with h | h
        · exact .inl h
        · exact .inr (List.mem_cons_of_mem _ h)
      · rcases List.mem_cons.mp h with h | h
        · exact .inr (by simp [h])
        · rcases ih h with h | h
          · exact .inl h
          · exact .inr (List.mem_cons_of_mem _ h)

theorem insertEntry_ascending {k : κ} {v : α} {es : List (κ × α)}
    (h : es.Pairwise fun a b => Key.rank a.1 < Key.rank b.1) :
    (insertEntry k v es).Pairwise fun a b => Key.rank a.1 < Key.rank b.1 := by
  induction es with
  | nil => simp [insertEntry]
  | cons d ds ih =>
    rw [List.pairwise_cons] at h
    simp only [insertEntry]
    split
    · rename_i hlt
      refine List.pairwise_cons.mpr ⟨fun e he => ?_, List.pairwise_cons.mpr h⟩
      rcases List.mem_cons.mp he with rfl | he
      · exact hlt
      · exact Nat.lt_trans hlt (h.1 e he)
    · split
      · rename_i heq
        exact List.pairwise_cons.mpr ⟨fun e he => by simpa [heq] using h.1 e he, h.2⟩
      · refine List.pairwise_cons.mpr ⟨fun e he => ?_, ih h.2⟩
        rcases mem_insertEntry he with rfl | he
        · show Key.rank d.1 < Key.rank k
          omega
        · exact h.1 e he

/-- Sets the value at a key, adding the key if it is new. -/
def insert (m : Keyed κ α) (k : κ) (v : α) : Keyed κ α :=
  ⟨insertEntry k v m.entries, insertEntry_ascending m.ascending⟩

/-- Takes the entry of a key out, if there is one. -/
def erase (m : Keyed κ α) (k : κ) : Keyed κ α :=
  ⟨m.entries.filter fun e => Key.rank e.1 ≠ Key.rank k, m.ascending.filter _⟩

/-- Changes every value, with its key at hand. -/
def mapValues (f : κ → α → β) (m : Keyed κ α) : Keyed κ β :=
  ⟨m.entries.map fun e => (e.1, f e.1 e.2), List.pairwise_map.mpr m.ascending⟩

/-- Changes the value at one key, if it has one. -/
def modify (m : Keyed κ α) (k : κ) (f : α → α) : Keyed κ α :=
  m.mapValues fun j v => if Key.rank j = Key.rank k then f v else v

/-- Adds a key with a value unless the key is there already. -/
def insertIfNew (m : Keyed κ α) (k : κ) (v : α) : Keyed κ α :=
  if m.contains k then m else m.insert k v

/-! ### What a look-up sees -/

theorem keys_ascending (m : Keyed κ α) :
    m.keys.Pairwise fun a b => Key.rank a < Key.rank b :=
  List.pairwise_map.mpr m.ascending

theorem lookup_eq_some_iff {k : κ} {v : α} {es : List (κ × α)}
    (h : es.Pairwise fun a b => Key.rank a.1 < Key.rank b.1) :
    lookup k es = some v ↔ (k, v) ∈ es := by
  induction es with
  | nil => simp [lookup]
  | cons d ds ih =>
    rw [List.pairwise_cons] at h
    simp only [lookup, List.mem_cons]
    split
    · rename_i hd
      refine ⟨fun hv => .inl ?_, fun hmem => ?_⟩
      · rw [← Key.rank_inj hd, ← Option.some.inj hv]
      · rcases hmem with rfl | hmem
        · rfl
        · have hlt : Key.rank d.1 < Key.rank k := h.1 _ hmem
          omega
    · rename_i hd
      rw [ih h.2]
      refine ⟨.inr, fun hmem => hmem.resolve_left ?_⟩
      rintro rfl
      exact hd rfl

theorem get?_eq_some_iff {m : Keyed κ α} {k : κ} {v : α} :
    m.get? k = some v ↔ (k, v) ∈ m.entries :=
  lookup_eq_some_iff m.ascending

theorem mem_values {m : Keyed κ α} {v : α} : v ∈ m.values ↔ ∃ k, m.get? k = some v := by
  simp [values, get?_eq_some_iff]

theorem mem_keys {m : Keyed κ α} {k : κ} : k ∈ m.keys ↔ ∃ v, m.get? k = some v := by
  simp [keys, get?_eq_some_iff]

@[simp]
theorem get?_empty (k : κ) : (empty : Keyed κ α).get? k = none := rfl

theorem lookup_insertEntry (k j : κ) (v : α) (es : List (κ × α)) :
    lookup j (insertEntry k v es) =
      if Key.rank k = Key.rank j then some v else lookup j es := by
  induction es with
  | nil => simp [insertEntry, lookup]
  | cons d ds ih =>
    simp only [insertEntry]
    split
    · simp [lookup]
    · split
      · rename_i heq
        simp only [lookup, heq]
        split <;> rfl
      · rename_i hne
        simp only [lookup, ih]
        split
        · rename_i hd
          rw [if_neg (by omega)]
        · rfl

theorem get?_insert (m : Keyed κ α) (k j : κ) (v : α) :
    (m.insert k v).get? j = if Key.rank k = Key.rank j then some v else m.get? j :=
  lookup_insertEntry k j v m.entries

@[simp]
theorem get?_insert_self (m : Keyed κ α) (k : κ) (v : α) : (m.insert k v).get? k = some v := by
  simp [get?_insert]

theorem lookup_filter_ne (k j : κ) (es : List (κ × α)) :
    lookup j (es.filter fun e => Key.rank e.1 ≠ Key.rank k) =
      if Key.rank k = Key.rank j then none else lookup j es := by
  induction es with
  | nil => simp [lookup]
  | cons d ds ih =>
    by_cases hd : Key.rank d.1 = Key.rank k
    · rw [List.filter_cons_of_neg (by simpa using hd), ih]
      simp only [lookup, hd]
      split <;> rfl
    · rw [List.filter_cons_of_pos (by simpa using hd)]
      simp only [lookup, ih]
      split
      · rw [if_neg (by omega)]
      · rfl

theorem get?_erase (m : Keyed κ α) (k j : κ) :
    (m.erase k).get? j = if Key.rank k = Key.rank j then none else m.get? j :=
  lookup_filter_ne k j m.entries

@[simp]
theorem get?_erase_self (m : Keyed κ α) (k : κ) : (m.erase k).get? k = none := by
  simp [get?_erase]

theorem lookup_map (f : κ → α → β) (j : κ) (es : List (κ × α)) :
    lookup j (es.map fun e => (e.1, f e.1 e.2)) = (lookup j es).map (f j) := by
  induction es with
  | nil => rfl
  | cons d ds ih =>
    simp only [List.map_cons, lookup, ih]
    split
    · rename_i h
      rw [Key.rank_inj h]; rfl
    · rfl

theorem get?_mapValues (f : κ → α → β) (m : Keyed κ α) (j : κ) :
    (m.mapValues f).get? j = (m.get? j).map (f j) :=
  lookup_map f j m.entries

@[simp]
theorem keys_mapValues (f : κ → α → β) (m : Keyed κ α) : (m.mapValues f).keys = m.keys := by
  simp [keys, mapValues]

@[simp]
theorem keys_modify (m : Keyed κ α) (k : κ) (f : α → α) : (m.modify k f).keys = m.keys :=
  keys_mapValues _ m

theorem get?_modify (m : Keyed κ α) (k j : κ) (f : α → α) :
    (m.modify k f).get? j =
      if Key.rank j = Key.rank k then (m.get? j).map f else m.get? j := by
  rw [modify, get?_mapValues]
  split <;> simp_all

/-! ### What a look-up does not see -/

theorem get?_insert_of_ne (m : Keyed κ α) {k j : κ} (v : α) (h : j ≠ k) :
    (m.insert k v).get? j = m.get? j := by
  rw [get?_insert, if_neg fun heq => h (Key.rank_inj heq).symm]

theorem get?_erase_of_ne (m : Keyed κ α) {k j : κ} (h : j ≠ k) :
    (m.erase k).get? j = m.get? j := by
  rw [get?_erase, if_neg fun heq => h (Key.rank_inj heq).symm]

/-- What is found after an entry was taken out was there before. -/
theorem get?_of_get?_erase {m : Keyed κ α} {k j : κ} {v : α} (h : (m.erase k).get? j = some v) :
    m.get? j = some v := by
  rw [get?_erase] at h
  split at h
  · cases h
  · exact h

theorem get?_modify_of_ne (m : Keyed κ α) {k j : κ} (f : α → α) (h : j ≠ k) :
    (m.modify k f).get? j = m.get? j := by
  rw [get?_modify, if_neg fun heq => h (Key.rank_inj heq)]

@[simp]
theorem get?_modify_self (m : Keyed κ α) (k : κ) (f : α → α) :
    (m.modify k f).get? k = (m.get? k).map f := by
  rw [get?_modify, if_pos rfl]

end Keyed

end CurvePlot
