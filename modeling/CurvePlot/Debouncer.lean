import CurvePlot.Keyed
/-!
# Debouncing

A debouncer waits for bursts of events to end. A key that was scheduled becomes
due when the delay has passed since it was last scheduled. Time is told by the
caller, in milliseconds.
-/

namespace CurvePlot

/-- Keys that wait for their bursts to end. -/
structure Debouncer where
  /-- How long a burst has to rest. -/
  delay : Nat
  /-- When each waiting key becomes due. -/
  deadlines : Keyed Nat Nat

namespace Debouncer

/-- The debouncer in which nothing waits. -/
def idle (delay : Nat) : Debouncer := ⟨delay, Keyed.empty⟩

/-- Starts the wait of a key, or starts it over. -/
def schedule (d : Debouncer) (key now : Nat) : Debouncer :=
  { d with deadlines := d.deadlines.insert key (now + d.delay) }

/-- Ends the wait of a key without delivering it. -/
def cancel (d : Debouncer) (key : Nat) : Debouncer :=
  { d with deadlines := d.deadlines.erase key }

/-- Ends every wait. -/
def clear (d : Debouncer) : Debouncer := idle d.delay

/-- Whether a key waits. -/
def isPending (d : Debouncer) (key : Nat) : Bool := d.deadlines.contains key

/-- When the next key becomes due. -/
def nextDeadline? (d : Debouncer) : Option Nat := d.deadlines.values.min?

/-- The keys that are due, in order. -/
def due (d : Debouncer) (now : Nat) : List Nat :=
  (d.deadlines.entries.filter fun e => e.2 ≤ now).map (·.1)

/-- The debouncer after the keys that are due were delivered. -/
def deliver (d : Debouncer) (now : Nat) : Debouncer :=
  { d with deadlines := ⟨d.deadlines.entries.filter fun e => !(e.2 ≤ now),
    d.deadlines.ascending.filter _⟩ }

end Debouncer

end CurvePlot
