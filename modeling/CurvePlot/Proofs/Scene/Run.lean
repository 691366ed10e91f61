import CurvePlot.Proofs.JobBoard.LiveAll
import CurvePlot.Scene.Pins
import CurvePlot.Scene.Poll
import CurvePlot.Scene.Store
import CurvePlot.Scene.View
import CurvePlot.Snapshot
/-!
# Runs of a scene

`Action` lists all that may happen to a scene: what its user asks for, the parts of
a poll, and the ends of passes in the background. Times are told by the user and may
run backwards, numbers of equations need not exist, and what is refused leaves the
scene as it is. `Scene.run` does one action after the other.

A poll is not one action but a row of them: edits, refreshes, scrolling, and then the
results one by one. Passes may end between any two of these, so the row may be mixed
with the ends of passes, and it may stop early, as a wait does that runs out of time.
`run_poll` and `run_waitForContours` say that the undisturbed rows are `poll` and
`waitForContours`.
-/

namespace CurvePlot

namespace Scene

/-- Something that may happen to a scene. -/
inductive Action where
  | add (text : String)
  /-- An equation of a given color is added. -/
  | addColored (text : String) (color : Color)
  | remove (id : Nat)
  /-- A text is set at once. -/
  | setText (id : Nat) (text : String)
  /-- A text is typed, and waits until typing rests. -/
  | editText (id : Nat) (text : String) (now : Nat)
  | clear
  /-- All equations are replaced by those of a sheet. -/
  | loadSheet (sheet : String)
  | setColor (id : Nat) (color : Color)
  | setParameter (id : Nat) (name : Char) (value : Float) (now : Nat)
  | setParameterRange (id : Nat) (name : Char) (min max : Float)
  | beginDrag
  | endDrag
  | pan (dx dy : Float)
  /-- The wheel is turned over a pixel. -/
  | zoomAt (px py : Float) (inward : Bool) (now : Nat)
  | zoom (inward : Bool)
  /-- The view goes back to the origin. -/
  | resetView
  | setView (camera : Camera Float)
  | resize (width height : Float)
  | refreshEquation (id : Nat)
  | refreshAll
  | contour (id : Nat)
  | snapshot
  /-- A point is pinned, or the pins next to it are taken away. -/
  | togglePin (x y : Float)
  | click (px py : Float)
  | clearPins
  /-- First part of a poll: the texts are set whose typing has rested. -/
  | applyEdits (now : Nat)
  /-- Second part of a poll: the equations are refreshed whose sliders have rested. -/
  | applyRefreshes (now : Nat)
  /-- Third part of a poll: the view settles if scrolling has rested. -/
  | applyScroll (now : Nat)
  /-- Last part of a poll, and part of a wait: one result is taken and kept. -/
  | receive
  /-- A pass ends in the background. If it was called off, it may leave anything. -/
  | finish (ticket : Nat) (left : Option (List (Segment Float)))

/-- The scene that an operation makes of this one, or this one if it is refused. -/
def after (s : Scene) : Except SceneError Scene → Scene
  | .ok s' => s'
  | .error _ => s

/-- Takes the oldest result that has arrived and keeps it. -/
def receive (s : Scene) : Scene :=
  ({ s with jobs := s.jobs.receive.1 }.install s.jobs.receive.2.toList).1

/-- Lets a pass end, if it is running. -/
def finish (s : Scene) (ticket : Nat) (left : Option (List (Segment Float))) : Scene :=
  match s.jobs.running.find? (·.ticket = ticket) with
  | some job => { s with jobs := s.jobs.finish job left }
  | none => s

/-- What an action makes of a scene. -/
def act (s : Scene) : Action → Scene
  | .add text => s.add text
  | .addColored text color => s.addColored text color
  | .remove id => s.after (s.remove id)
  | .setText id text => s.after (s.setText id text)
  | .editText id text now => s.after (s.editText id text now)
  | .clear => s.clear
  | .loadSheet sheet => (s.loadSheet sheet).1
  | .setColor id color => s.after (s.setColor id color)
  | .setParameter id name value now => s.after (s.setParameter id name value now)
  | .setParameterRange id name min max => s.after (s.setParameterRange id name min max)
  | .beginDrag => s.beginDrag
  | .endDrag => s.endDrag
  | .pan dx dy => s.pan dx dy
  | .zoomAt px py inward now => s.zoomAt px py inward now
  | .zoom inward => s.zoom inward
  | .resetView => s.resetView
  | .setView camera => s.setView camera
  | .resize width height => s.resize width height
  | .refreshEquation id => s.refreshEquation id
  | .refreshAll => s.refreshAll
  | .contour id => (s.contour id).1
  | .snapshot => s.snapshot.1
  | .togglePin x y => (s.togglePin x y).1
  | .click px py => (s.click px py).1
  | .clearPins => s.clearPins
  | .applyEdits now => (s.applyEdits now).1
  | .applyRefreshes now => (s.applyRefreshes now).1
  | .applyScroll now => (s.applyScroll now).1
  | .receive => s.receive
  | .finish ticket left => s.finish ticket left

/-- **What a row of actions makes of a scene.** -/
def run (s : Scene) (actions : List Action) : Scene := actions.foldl act s

@[simp]
theorem run_nil (s : Scene) : s.run [] = s := rfl

@[simp]
theorem run_cons (s : Scene) (a : Action) (actions : List Action) :
    s.run (a :: actions) = (s.act a).run actions := rfl

theorem run_append (s : Scene) (before after : List Action) :
    s.run (before ++ after) = (s.run before).run after :=
  List.foldl_append

/-- What every action preserves holds after every run. -/
theorem run_induction {I : Scene → Prop} (hact : ∀ s a, I s → I (s.act a)) {s : Scene}
    (h : I s) (actions : List Action) : I (s.run actions) := by
  induction actions generalizing s with
  | nil => exact h
  | cons a actions ih => exact ih (hact s a h)

/-- What holds of the scene and of what the operation makes of it holds afterwards. -/
theorem after_of {I : Scene → Prop} {s : Scene} {outcome : Except SceneError Scene} (h : I s)
    (hok : ∀ s', outcome = .ok s' → I s') : I (s.after outcome) := by
  cases outcome with
  | ok s' => exact hok s' rfl
  | error e => exact h

/-! ### Polls and waits as rows of actions -/

theorem installOne_fst (s : Scene) (changed : Bool) (f : Finished) :
    (installOne (s, changed) f).1 = (s.install [f]).1 := by
  simp only [install, List.foldl_cons, List.foldl_nil, installOne]
  split <;> rfl

/-- A result that is handed out is kept for its equation. -/
theorem receive_of_some {s : Scene} {f : Finished} {r : Row} (hf : s.jobs.receive.2 = some f)
    (hr : s.rows.get? f.id = some r) :
    s.receive = { s with jobs := s.jobs.receive.1 }.updateRow f.id fun r =>
      { r with contour := some ⟨f.segments, f.viewport, .fine⟩ } := by
  have hthere : s.rows.contains f.id = true := congrArg Option.isSome hr
  rw [receive, hf, Option.toList_some, ← installOne_fst _ false, installOne, if_pos hthere]

theorem foldl_installOne_fst (state : Scene × Bool) (finished : List Finished) :
    (finished.foldl installOne state).1 = (state.1.install finished).1 := by
  induction finished generalizing state with
  | nil => rfl
  | cons f rest ih =>
    -- whether anything changed is noted, but nobody looks at it
    calc ((f :: rest).foldl installOne state).1
        = ((installOne (state.1, state.2) f).1.install rest).1 := ih _
      _ = ((installOne (state.1, false) f).1.install rest).1 := by
        rw [installOne_fst, installOne_fst]
      _ = (state.1.install (f :: rest)).1 := (ih _).symm

theorem install_append (s : Scene) (first rest : List Finished) :
    (s.install (first ++ rest)).1 = ((s.install first).1.install rest).1 := by
  rw [install, List.foldl_append, foldl_installOne_fst]
  rfl

/-- Keeping results leaves the board alone and does not look at it. -/
theorem install_jobs (s : Scene) (b : JobBoard) (finished : List Finished) :
    ({ s with jobs := b }.install finished).1 = { (s.install finished).1 with jobs := b } := by
  induction finished generalizing s with
  | nil => rfl
  | cons f rest ih =>
    rw [← List.singleton_append, install_append, install_append, ← ih]
    congr 2
    simp only [install, List.foldl_cons, List.foldl_nil, installOne]
    split <;> rfl

theorem collect_nil {s : Scene} (h : s.jobs.arrived = []) : s.collect.1 = s := by
  unfold collect
  rw [JobBoard.drain_nil h]
  rfl

/-- To collect is to take the oldest result and collect the others. -/
theorem collect_cons {s : Scene} {o : Outcome} {rest : List Outcome}
    (h : s.jobs.arrived = o :: rest) : s.collect.1 = s.receive.collect.1 := by
  have hjobs : s.receive.jobs = s.jobs.receive.1 := by rw [receive, install_jobs]
  have hrest : ∀ finished, ({ s.receive with jobs := s.jobs.receive.1.drain.1 }.install finished).1 =
      (({ s with jobs := s.jobs.receive.1.drain.1 }.install
        s.jobs.receive.2.toList).1.install finished).1 := by
    intro finished
    rw [install_jobs s, receive, install_jobs s]
  -- draining empties the board before anything is kept, which makes no difference
  unfold collect
  rw [JobBoard.drain_cons h, hjobs]
  exact (install_append _ _ _).trans (hrest _).symm

/-- Collecting is taking one result after the other. -/
theorem run_collect (s : Scene) :
    s.run (List.replicate s.jobs.arrived.length .receive) = s.collect.1 := by
  generalize hn : s.jobs.arrived = arrived
  induction arrived generalizing s with
  | nil => rw [collect_nil hn]; rfl
  | cons o rest ih =>
    have hrest : s.receive.jobs.arrived = rest := by
      rw [receive, install_jobs]
      simp [JobBoard.receive, hn]
    rw [collect_cons hn, List.length_cons, List.replicate_succ, run_cons]
    exact ih s.receive hrest

/-- **A poll is a row of actions.** -/
theorem run_poll (s : Scene) (now : Nat) : ∃ taken,
    s.run ([.applyEdits now, .applyRefreshes now, .applyScroll now]
      ++ List.replicate taken .receive) = (s.poll now).1 := by
  refine ⟨(((s.applyEdits now).1.applyRefreshes now).1.applyScroll now).1.jobs.arrived.length, ?_⟩
  rw [run_append]
  exact run_collect _

/-- Letting all passes end is a row of actions. -/
theorem run_completePasses {s : Scene} {log : List JobBoard.Event} (h : JobBoard.Run log s.jobs) :
    ∃ ends : List (Nat × Option (List (Segment Float))),
      s.run (ends.map fun e => .finish e.1 e.2) = s.completePasses := by
  generalize hn : s.jobs.running = running
  induction running generalizing s log with
  | nil =>
    refine ⟨[], ?_⟩
    rw [completePasses, JobBoard.completeAll_nil hn]
    rfl
  | cons job rest ih =>
    obtain ⟨hrest, hall⟩ := JobBoard.completeAll_cons hn h.kept.running_nodup
    -- tickets are not given out twice, so the first pass is found by its ticket
    have hact : s.finish job.ticket (JobBoard.outcome job).segments =
        { s with jobs := s.jobs.finish job (JobBoard.outcome job).segments } := by
      unfold finish
      rw [hn, List.find?_cons_of_pos (by simp)]
    obtain ⟨ends, hends⟩ := @ih { s with jobs := s.jobs.finish job (JobBoard.outcome job).segments }
      _ (.finish job _ (hn ▸ List.mem_cons_self) h) hrest
    refine ⟨(job.ticket, (JobBoard.outcome job).segments) :: ends, ?_⟩
    rw [List.map_cons, run_cons, act, hact, hends, completePasses, completePasses, hall]

/-- **A wait is a row of actions,** in which passes end and results are taken. -/
theorem run_waitForContours {s : Scene} {log : List JobBoard.Event}
    (h : JobBoard.Run log s.jobs) :
    ∃ (ends : List (Nat × Option (List (Segment Float)))) (taken : Nat),
      s.run (ends.map (fun e => .finish e.1 e.2) ++ List.replicate taken .receive) =
        s.waitForContours.1 := by
  obtain ⟨ends, hends⟩ := run_completePasses h
  refine ⟨ends, s.completePasses.jobs.arrived.length, ?_⟩
  rw [run_append, hends]
  exact run_collect _

end Scene

end CurvePlot
