import CurvePlot.Scene.Edit
/-!
# The passing of time

`poll` does what has become due, in this order: texts whose typing has rested,
sliders that have rested, scrolling that has rested, and the results of fine
passes that have arrived. It says whether anything may look different.
-/

namespace CurvePlot.Scene

/-- Sets the text that was typed last for an equation, if there is one. -/
def applyEdit (state : Scene × Bool) (id : Nat) : Scene × Bool :=
  match state.1.pendingText.get? id with
  | none => state
  | some text =>
    -- the text does not wait any more, whether or not it can be set
    let s := { state.1 with pendingText := state.1.pendingText.erase id }
    match s.setText id text with
    | .ok s => (s, true)
    | .error _ => (s, state.2)

/-- Sets the texts whose typing has rested. -/
def applyEdits (s : Scene) (now : Nat) : Scene × Bool :=
  (s.edits.due now).foldl applyEdit ({ s with edits := s.edits.deliver now }, false)

/-- Refreshes the equations whose sliders have rested. -/
def applyRefreshes (s : Scene) (now : Nat) : Scene × Bool :=
  -- landmarks are found anew once, behind all the equations, and not if none is due
  let due := s.refreshes.due now
  let s := { s with refreshes := s.refreshes.deliver now }
  if due.isEmpty then (s, false)
  else ((due.foldl refreshEquation s).refreshDerived, true)

/-- Refreshes the scene if scrolling has rested. -/
def applyScroll (s : Scene) (now : Nat) : Scene × Bool :=
  if s.scrollSettlesAt.any (· ≤ now) then ({ s with scrollSettlesAt := none }.refreshAll, true)
  else (s, false)

/-- Keeps the result of a fine pass for its equation, if that is still there. -/
def installOne (state : Scene × Bool) (f : Finished) : Scene × Bool :=
  if state.1.rows.contains f.id then
    (state.1.updateRow f.id fun r => { r with contour := some ⟨f.segments, f.viewport, .fine⟩ },
      true)
  else state

/-- Keeps the results of fine passes. -/
def install (s : Scene) (finished : List Finished) : Scene × Bool :=
  finished.foldl installOne (s, false)

/-- Takes the results of fine passes that have arrived. -/
def collect (s : Scene) : Scene × Bool :=
  let (jobs, finished) := s.jobs.drain
  { s with jobs := jobs }.install finished

/-- **Does what has become due** by a moment. -/
def poll (s : Scene) (now : Nat) : Scene × Bool :=
  let (s, edited) := s.applyEdits now
  let (s, refreshed) := s.applyRefreshes now
  let (s, settled) := s.applyScroll now
  let (s, collected) := s.collect
  (s, edited || refreshed || settled || collected)

/-- Lets every running fine pass come to its end. -/
def completePasses (s : Scene) : Scene := { s with jobs := s.jobs.completeAll }

/-- Does what has become due by a moment, and lets the fine passes that run then
come to their end before it looks at their results. -/
def pollThrough (s : Scene) (now : Nat) : Scene × Bool :=
  let (s, first) := s.poll now
  let (s, second) := s.completePasses.poll now
  (s, first || second)

/-- Lets every running fine pass come to its end and keeps the results. The answer
says whether none is awaited any more. -/
def waitForContours (s : Scene) : Scene × Bool :=
  let s := s.completePasses.collect.1
  (s, s.jobs.runningCount == 0)

end CurvePlot.Scene
