import CurvePlot.Contour
import CurvePlot.Equation
/-!
# Fine passes in the background

Fine passes run in the background and finish in any order. The board gives each
pass a ticket of its own and remembers, for each equation, the pass that is
awaited: at most one, the last that was begun and not called off. Results that
nobody awaits any more are dropped when they are taken from the board.

A pass belongs to the equation as it was when the pass was begun.
-/

namespace CurvePlot

/-- A pass that was begun. -/
structure Job where
  /-- The number of the equation. -/
  id : Nat
  /-- The number of the pass. -/
  ticket : Nat
  /-- The equation with its sliders at the time. -/
  equation : Equation
  viewport : Viewport Float
  settings : Settings Float
  /-- Whether it was called off. -/
  cancelled : Bool

/-- What a pass has left when it is over: nothing if it gave up. -/
structure Outcome where
  /-- The number of the equation. -/
  id : Nat
  /-- The number of the pass. -/
  ticket : Nat
  viewport : Viewport Float
  segments : Option (List (Segment Float))

/-- A pass that is awaited. -/
structure InFlight where
  /-- The number of the pass. -/
  ticket : Nat
  viewport : Viewport Float

/-- A result that was awaited. -/
structure Finished where
  /-- The number of the equation. -/
  id : Nat
  viewport : Viewport Float
  segments : List (Segment Float)

/-- The passes that run, are awaited or have left their results. -/
structure JobBoard where
  /-- The ticket of the next pass. -/
  nextTicket : Nat
  /-- The awaited pass of each equation. -/
  inFlight : Keyed Nat InFlight
  /-- The passes that are not over. -/
  running : List Job
  /-- The results that lie ready, the oldest first. -/
  arrived : List Outcome

namespace JobBoard

/-- The board on which nothing has happened. -/
def empty : JobBoard := ⟨0, Keyed.empty, [], []⟩

/-- Tells a running pass that it is called off. -/
def signal (ticket : Nat) (jobs : List Job) : List Job :=
  jobs.map fun job => if job.ticket = ticket then { job with cancelled := true } else job

/-- Calls off the awaited pass of an equation, if there is one. -/
def cancel (b : JobBoard) (id : Nat) : JobBoard :=
  match b.inFlight.get? id with
  | none => b
  -- its result may lie on the board already, and stays there
  | some job => { b with inFlight := b.inFlight.erase id, running := signal job.ticket b.running }

/-- Calls off every awaited pass. -/
def cancelAll (b : JobBoard) : JobBoard :=
  { b with
    inFlight := Keyed.empty
    running := b.inFlight.values.foldl (fun jobs job => signal job.ticket jobs) b.running }

/-- Begins a pass, calling off the one that was awaited for the equation. -/
def spawn (b : JobBoard) (id : Nat) (equation : Equation) (viewport : Viewport Float)
    (settings : Settings Float) : JobBoard :=
  let b := b.cancel id
  { b with
    nextTicket := b.nextTicket + 1
    inFlight := b.inFlight.insert id ⟨b.nextTicket, viewport⟩
    running := b.running ++ [⟨id, b.nextTicket, equation, viewport, settings, false⟩] }

/-- Whether a pass is awaited for an equation. -/
def isRunning (b : JobBoard) (id : Nat) : Bool := b.inFlight.contains id

/-- Whether the pass that is awaited for an equation traces exactly this view. -/
def isRunningFor (b : JobBoard) (id : Nat) (viewport : Viewport Float) : Bool :=
  (b.inFlight.get? id).any fun job => job.viewport == viewport

/-- How many passes are awaited. -/
def runningCount (b : JobBoard) : Nat := b.inFlight.size

/-- What a pass leaves when it is over. One that was called off gives up. -/
def outcome (job : Job) : Outcome :=
  ⟨job.id, job.ticket, job.viewport,
    Contour.fine job.equation.field job.viewport job.settings job.cancelled⟩

/-- One running pass ends, and its result arrives. -/
def complete (b : JobBoard) (ticket : Nat) : JobBoard :=
  { b with
    running := b.running.filter fun job => job.ticket ≠ ticket
    arrived := b.arrived ++ (b.running.filter fun job => job.ticket = ticket).map outcome }

/-- Every running pass ends, in the order in which they were begun. -/
def completeAll (b : JobBoard) : JobBoard :=
  { b with running := [], arrived := b.arrived ++ b.running.map outcome }

/-- Takes a result that has arrived: it is handed out if it is the awaited one and
the pass did not give up. -/
def accept (inFlight : Keyed Nat InFlight) (o : Outcome) : Keyed Nat InFlight × Option Finished :=
  match inFlight.get? o.id with
  | none => (inFlight, none)
  | some job =>
    -- an older pass of the equation must not end the wait for a later one
    if job.ticket = o.ticket then
      (inFlight.erase o.id, o.segments.map fun segments => ⟨o.id, o.viewport, segments⟩)
    else (inFlight, none)

/-- Takes results one after the other. -/
def acceptAll (inFlight : Keyed Nat InFlight) : List Outcome → Keyed Nat InFlight × List Finished
  | [] => (inFlight, [])
  | o :: rest =>
    let (inFlight, finished) := accept inFlight o
    let (inFlight, more) := acceptAll inFlight rest
    (inFlight, finished.toList ++ more)

/-- **Takes every result that has arrived,** and hands out those that are awaited. -/
def drain (b : JobBoard) : JobBoard × List Finished :=
  let (inFlight, finished) := acceptAll b.inFlight b.arrived
  ({ b with inFlight := inFlight, arrived := [] }, finished)

/-- Lets every pass end and takes the results. -/
def wait (b : JobBoard) : JobBoard × List Finished := b.completeAll.drain

end JobBoard

end CurvePlot
