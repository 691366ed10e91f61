import CurvePlot.RingBuffer
import Mathlib.Data.Nat.ModEq
/-!
# The window of a ring buffer

What is seen through the window after it has moved: `RingBuffer.get?_advance` and
`RingBuffer.get?_retreat` say which of the places show a fresh value and which one an
old value, wherever the window began and however it wraps around.

Both come from what overwriting does to a slot. A slot is found as the one that lies
`j` places behind the first that is written: the `j`th value stands there if there is a
`j`th value and none was written over it (`getElem?_overwrite_of_lt`), and nothing was
written if all the values were written before (`getElem?_overwrite_of_le`).
-/

namespace CurvePlot.RingBuffer

variable {α : Type}

/-! ### Overwriting -/

/-- The places up to one round ahead are other slots. -/
theorem add_mod_ne {slot j n : Nat} (hj : 0 < j) (hn : j < n) : (slot + j) % n ≠ slot % n := by
  intro heq
  have hmod : slot + j ≡ slot + 0 [MOD n] := heq
  have hzero : j % n = 0 % n := Nat.ModEq.add_left_cancel' slot hmod
  rw [Nat.mod_eq_of_lt hn, Nat.zero_mod] at hzero
  omega

/-- Slots that come after the last value keep what they hold. -/
theorem getElem?_overwrite_of_le {slots : Array α} {slot j : Nat} {values : List α}
    (hlen : values.length ≤ j) (hj : j < slots.size) :
    (overwrite slots slot values)[(slot + j) % slots.size]? =
      slots[(slot + j) % slots.size]? := by
  -- by induction on the values, the first of which is written to the first slot
  induction values generalizing slots slot j with
  | nil => rfl
  | cons v vs ih =>
    rw [List.length_cons] at hlen
    -- the other values begin one slot further on, so the slot is one place nearer
    obtain ⟨i, rfl⟩ : ∃ i, j = i + 1 := ⟨j - 1, by omega⟩
    have hne : slot % slots.size ≠ (slot + (i + 1)) % slots.size :=
      (add_mod_ne (Nat.succ_pos i) hj).symm
    have hstep := @ih (slots.setIfInBounds (slot % slots.size) v) (slot + 1) i
      (by omega) (by rw [Array.size_setIfInBounds]; omega)
    rw [Array.size_setIfInBounds, Nat.add_assoc, Nat.add_comm 1 i] at hstep
    rw [overwrite, hstep, Array.getElem?_setIfInBounds_ne hne]

/-- A value stays where it was written until the writing comes round to it again. -/
theorem getElem?_overwrite_of_lt {slots : Array α} {slot j : Nat} {values : List α}
    (hj : j < values.length) (hround : values.length ≤ j + slots.size) (hsize : 0 < slots.size) :
    (overwrite slots slot values)[(slot + j) % slots.size]? = values[j]? := by
  -- by induction on the values, and by whether the value is the first of them
  induction values generalizing slots slot j with
  | nil => exact absurd hj (Nat.not_lt_zero j)
  | cons v vs ih =>
    rw [List.length_cons] at hj hround
    have hslot : slot % slots.size < slots.size := Nat.mod_lt _ hsize
    cases j with
    | zero =>
      -- the slot is the last that the other values would come to
      have hlast := @getElem?_overwrite_of_le _ (slots.setIfInBounds (slot % slots.size) v)
        (slot + 1) (slots.size - 1) vs (by omega) (by rw [Array.size_setIfInBounds]; omega)
      have hsame : (slot + 1 + (slots.size - 1)) % slots.size = slot % slots.size := by
        rw [Nat.add_assoc, Nat.add_sub_cancel' hsize, Nat.add_mod_right]
      rw [Array.size_setIfInBounds, hsame] at hlast
      rw [overwrite]
      exact hlast.trans (Array.getElem?_setIfInBounds_self_of_lt hslot)
    | succ i =>
      have hstep := @ih (slots.setIfInBounds (slot % slots.size) v) (slot + 1) i
        (by omega) (by rw [Array.size_setIfInBounds]; omega)
        (by rw [Array.size_setIfInBounds]; exact hsize)
      rw [Array.size_setIfInBounds, Nat.add_assoc, Nat.add_comm 1 i] at hstep
      rw [overwrite, hstep]
      rfl

/-! ### Moving the window -/

/-- Within the window, a place is found some slots behind the first. -/
theorem get?_of_lt (r : RingBuffer α) {i : Nat} (h : i < r.size) :
    r.get? i = r.slots[(r.start + i) % r.slots.size]? :=
  if_pos h

/-- A buffer that was just made shows its array. -/
theorem get?_ofArray (values : Array α) (i : Nat) : (ofArray values).get? i = values[i]? := by
  unfold get? slotOf ofArray
  dsimp only
  split
  · next h => rw [Nat.zero_add, Nat.mod_eq_of_lt h]
  · next h => rw [Array.getElem?_eq_none (Nat.le_of_not_lt h)]

/-- **A window moved forward** shows the old values that many places earlier, and behind
them the fresh ones. -/
theorem get?_advance (r : RingBuffer α) (fresh : List α) {i : Nat} (h : i < r.size) :
    (r.advance fresh).get? i =
      if i + fresh.length < r.size then r.get? (i + fresh.length)
      else fresh[i + fresh.length - r.size]? := by
  have hsize : 0 < r.slots.size := Nat.zero_lt_of_lt h
  have hn : r.size = r.slots.size := rfl
  rw [get?_of_lt _ ((size_advance r fresh).symm ▸ h)]
  unfold advance
  dsimp only
  rw [size_overwrite, Nat.mod_add_mod, Nat.add_assoc, Nat.add_comm fresh.length i]
  split
  · next hold =>
    -- an old value, which nothing was written over
    rw [getElem?_overwrite_of_le (Nat.le_add_left _ _) hold, get?_of_lt r hold]
  · -- places at the back are the slots that the window has just left
    next hnew =>
    have hslot : (r.start + (i + fresh.length)) % r.slots.size =
        (r.start + (i + fresh.length - r.size)) % r.slots.size := by
      have hsum : r.start + (i + fresh.length) =
          r.start + (i + fresh.length - r.size) + r.slots.size := by omega
      rw [hsum, Nat.add_mod_right]
    rw [hslot, getElem?_overwrite_of_lt (by omega) (by omega) hsize]

/-- **A window moved back** shows the fresh values, and behind them the old ones that
many places later. -/
theorem get?_retreat (r : RingBuffer α) (fresh : List α) (hlen : fresh.length ≤ r.size)
    {i : Nat} (h : i < r.size) :
    (r.retreat fresh).get? i =
      if i < fresh.length then fresh[i]? else r.get? (i - fresh.length) := by
  have hsize : 0 < r.slots.size := Nat.zero_lt_of_lt h
  have hn : r.size = r.slots.size := rfl
  rw [get?_of_lt _ ((size_retreat r fresh).symm ▸ h)]
  unfold retreat
  dsimp only
  rw [size_overwrite]
  split
  · -- a fresh value, where it was written
    next hnew => rw [getElem?_overwrite_of_lt hnew (by omega) hsize]
  · -- the window begins earlier by as many slots as there are fresh values
    next hold =>
    have hslot : ((r.start + r.slots.size - fresh.length) % r.slots.size + i) % r.slots.size =
        (r.start + (i - fresh.length)) % r.slots.size := by
      have hsum : r.start + r.slots.size - fresh.length + i =
          r.start + (i - fresh.length) + r.slots.size := by omega
      rw [Nat.mod_add_mod, hsum, Nat.add_mod_right]
    rw [getElem?_overwrite_of_le (Nat.le_of_not_lt hold) h, hslot, get?_of_lt r (by omega)]

end CurvePlot.RingBuffer
