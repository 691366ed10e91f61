/-!
# Ring buffers

A `RingBuffer α` holds a window of values in a fixed number of slots. The window may
begin at any slot and wraps around behind the last one, so moving it forward or
back by `k` places fills only `k` slots anew.
-/

namespace CurvePlot

/-- A window of values over a fixed number of slots. -/
structure RingBuffer (α : Type) where
  /-- The slots, in the order they are stored. -/
  slots : Array α
  /-- The slot of the first value of the window. -/
  start : Nat
deriving Repr, DecidableEq

namespace RingBuffer

variable {α : Type}

/-- The ring whose window is exactly `values`, begun at the first slot. -/
def ofArray (values : Array α) : RingBuffer α := ⟨values, 0⟩

def empty : RingBuffer α := ⟨#[], 0⟩

/-- The number of values in the window. -/
def size (r : RingBuffer α) : Nat := r.slots.size

/-- The slot of the `i`th value of the window. -/
def slotOf (r : RingBuffer α) (i : Nat) : Nat := (r.start + i) % r.slots.size

/-- The `i`th value of the window, none from the window's end on. -/
def get? (r : RingBuffer α) (i : Nat) : Option α :=
  if i < r.slots.size then r.slots[r.slotOf i]? else none

/-- The window as a list. -/
def toList (r : RingBuffer α) : List α := (List.range r.size).filterMap r.get?

/-- Writes `values` into successive slots from `slot` on, wrapping around. -/
def overwrite (slots : Array α) (slot : Nat) : List α → Array α
  | [] => slots
  | v :: vs => overwrite (slots.setIfInBounds (slot % slots.size) v) (slot + 1) vs

@[simp]
theorem size_overwrite (slots : Array α) (slot : Nat) (values : List α) :
    (overwrite slots slot values).size = slots.size := by
  induction values generalizing slots slot with
  | nil => rfl
  | cons v vs ih => simp [overwrite, ih]

/-- **Moves the window forward** by as many places as there are fresh values:
the oldest values leave and the fresh ones follow the newest. -/
def advance (r : RingBuffer α) (fresh : List α) : RingBuffer α :=
  ⟨overwrite r.slots r.start fresh, (r.start + fresh.length) % r.slots.size⟩

/-- **Moves the window back** by as many places as there are fresh values: the
newest values leave and the fresh ones precede the oldest. -/
def retreat (r : RingBuffer α) (fresh : List α) : RingBuffer α :=
  -- the number of slots is added so that the difference does not stop at zero
  let first := (r.start + r.slots.size - fresh.length) % r.slots.size
  ⟨overwrite r.slots first fresh, first⟩

@[simp]
theorem size_advance (r : RingBuffer α) (fresh : List α) : (r.advance fresh).size = r.size := by
  simp [advance, size]

@[simp]
theorem size_retreat (r : RingBuffer α) (fresh : List α) : (r.retreat fresh).size = r.size := by
  simp [retreat, size]

end RingBuffer

end CurvePlot
