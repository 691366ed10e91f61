import CurvePlot.Debouncer
import CurvePlot.Proofs.Keyed
/-!
# What waits, and for how long

What the operations of a debouncer do to the moment at which a key becomes due. A key
is due if that moment has come, and delivering takes exactly the due keys away.
-/

namespace CurvePlot.Debouncer

variable {d : Debouncer} {key now : Nat}

/-- A key is due if it waits for a moment that has come. -/
theorem mem_due : key ∈ d.due now ↔ ∃ moment, d.deadlines.get? key = some moment ∧ moment ≤ now := by
  rw [due, List.mem_map]
  constructor
  · rintro ⟨⟨k, moment⟩, hmem, rfl⟩
    obtain ⟨hmem, hle⟩ := List.mem_filter.mp hmem
    exact ⟨moment, Keyed.get?_eq_some_iff.mpr hmem, of_decide_eq_true hle⟩
  · rintro ⟨moment, hget, hle⟩
    have hmem : (key, moment) ∈ d.deadlines.entries := Keyed.get?_eq_some_iff.mp hget
    exact ⟨(key, moment), List.mem_filter.mpr ⟨hmem, decide_eq_true hle⟩, rfl⟩

/-- No key is due twice. -/
theorem nodup_due (d : Debouncer) (now : Nat) : (d.due now).Nodup :=
  d.deadlines.nodup_keys.sublist (List.filter_sublist.map _)

/-- What still waits after a delivery waited before, for a later moment. -/
theorem get?_deliver_eq_some_iff {moment : Nat} :
    (d.deliver now).deadlines.get? key = some moment ↔
      d.deadlines.get? key = some moment ∧ now < moment := by
  rw [Keyed.get?_eq_some_iff, Keyed.get?_eq_some_iff, deliver, List.mem_filter]
  simp

/-- **Delivering takes the due keys away** and no other. -/
theorem get?_deliver (d : Debouncer) (now key : Nat) :
    (d.deliver now).deadlines.get? key =
      if key ∈ d.due now then none else d.deadlines.get? key := by
  split
  · next hdue =>
    rw [Option.eq_none_iff_forall_ne_some]
    intro moment hmoment
    obtain ⟨hget, hlt⟩ := get?_deliver_eq_some_iff.mp hmoment
    -- the key waits for one moment, which has come
    obtain ⟨other, hother, hle⟩ := mem_due.mp hdue
    obtain rfl : moment = other := Option.some.inj (hget.symm.trans hother)
    exact absurd hle (Nat.not_le.mpr hlt)
  · next hdue =>
    refine Option.ext fun moment => ?_
    rw [get?_deliver_eq_some_iff]
    refine ⟨fun h => h.1, fun hget => ⟨hget, Nat.lt_of_not_le fun hle => hdue ?_⟩⟩
    exact mem_due.mpr ⟨moment, hget, hle⟩

/-- Scheduling a key leaves the others as they are, -/
theorem get?_schedule_of_ne {other : Nat} (h : other ≠ key) :
    (d.schedule key now).deadlines.get? other = d.deadlines.get? other :=
  Keyed.get?_insert_of_ne d.deadlines _ h

/-- and so does cancelling it. -/
theorem get?_cancel_of_ne {other : Nat} (h : other ≠ key) :
    (d.cancel key).deadlines.get? other = d.deadlines.get? other :=
  Keyed.get?_erase_of_ne d.deadlines h

/-- A cancelled key waits for nothing. -/
@[simp]
theorem get?_cancel_self : (d.cancel key).deadlines.get? key = none :=
  Keyed.get?_erase_self d.deadlines key

/-- A scheduled key waits for the moment when its delay is over. -/
@[simp]
theorem get?_schedule_self : (d.schedule key now).deadlines.get? key = some (now + d.delay) :=
  Keyed.get?_insert_self d.deadlines key _

/-- Whether another key is pending is not changed by cancelling, -/
theorem isPending_cancel_of_ne {other : Nat} (h : other ≠ key) :
    (d.cancel key).isPending other = d.isPending other :=
  congrArg Option.isSome (get?_cancel_of_ne h)

/-- nor by scheduling. -/
theorem isPending_schedule_of_ne {other : Nat} (h : other ≠ key) :
    (d.schedule key now).isPending other = d.isPending other :=
  congrArg Option.isSome (get?_schedule_of_ne h)

/-- A scheduled key is pending. -/
theorem isPending_schedule_self : (d.schedule key now).isPending key = true :=
  congrArg Option.isSome get?_schedule_self

/-- What is not due stays pending. -/
theorem isPending_deliver_of_not_due {other : Nat} (h : other ∉ d.due now) :
    (d.deliver now).isPending other = d.isPending other :=
  congrArg Option.isSome ((get?_deliver d now other).trans (if_neg h))

/-- A key that is due if it is pending at all is not pending after the delivery. -/
theorem isPending_deliver_of_due (h : d.isPending key = true → key ∈ d.due now) :
    (d.deliver now).isPending key = false := by
  rw [isPending, Keyed.contains, get?_deliver]
  split
  · rfl
  · next hdue => exact Bool.eq_false_iff.mpr fun hpending => hdue (h hpending)

end CurvePlot.Debouncer
