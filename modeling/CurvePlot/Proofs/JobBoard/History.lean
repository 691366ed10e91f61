import CurvePlot.Contour.JobBoard
/-!
# Histories of a job board

The owner of a board begins passes, calls them off and takes their results. The
passes themselves end in the background, in any order and at any moment between
two of these. `JobBoard.Run log b` says that `b` is a board to which the history
`log` may lead, the latest event standing first.

* `Live log job`: the pass was begun, and since then its equation has neither
  begun another one nor had its pass called off.
* `Awaited log job`: moreover its result was not handed out yet.

A pass that was called off may have noticed it at any moment or never, and may
have read sliders that were moved meanwhile. So `JobBoard.finish` lets it leave
anything at all; only a pass that nobody called off leaves what `Job.result` says.

A board hands out results by `receive`, one at a time. Taking all that have arrived
and waiting for all that are running are rows of such steps, between which more
passes may end (`Run.drain`, `Run.wait`).
-/

namespace CurvePlot

namespace Job

/-- What a pass finds that nobody calls off. -/
def result (job : Job) : Option (List (Segment Float)) :=
  Contour.fine job.equation.field job.viewport job.settings false

/-- The pass as it was begun. -/
def asBegun (job : Job) : Job := { job with cancelled := false }

/-- What a pass leaves when it is over, where a pass that was called off may leave
whatever it likes. -/
def leaving (job : Job) (left : Option (List (Segment Float))) : Outcome :=
  ⟨job.id, job.ticket, job.viewport, if job.cancelled then left else job.result⟩

/-- The pass, called off if its ticket is in the list. -/
def hush (tickets : List Nat) (job : Job) : Job :=
  if job.ticket ∈ tickets then { job with cancelled := true } else job

/-- A pass keeps its ticket whether it is called off or not. -/
@[simp]
theorem ticket_asBegun (job : Job) : job.asBegun.ticket = job.ticket := rfl

/-- To be called off does not change the ticket, -/
@[simp]
theorem ticket_hush (tickets : List Nat) (job : Job) :
    (job.hush tickets).ticket = job.ticket := by
  unfold hush
  split <;> rfl

/-- nor the number of the equation, -/
@[simp]
theorem id_hush (tickets : List Nat) (job : Job) : (job.hush tickets).id = job.id := by
  unfold hush
  split <;> rfl

/-- nor what the pass was begun as. -/
@[simp]
theorem asBegun_hush (tickets : List Nat) (job : Job) :
    (job.hush tickets).asBegun = job.asBegun := by
  unfold hush
  split <;> rfl

/-- A signal for nobody is not heard. -/
@[simp]
theorem hush_nil (job : Job) : job.hush [] = job := by
  simp [hush]

/-- A pass is still on exactly if it was so before and its ticket is not among those signalled. -/
theorem cancelled_hush (tickets : List Nat) (job : Job) :
    (job.hush tickets).cancelled = false ↔ job.cancelled = false ∧ job.ticket ∉ tickets := by
  unfold hush
  split
  · next h => simp [h]
  · next h => simp [h]

/-- Two signals are one signal to the tickets of both. -/
theorem hush_append (ts us : List Nat) (job : Job) :
    (job.hush ts).hush us = job.hush (ts ++ us) := by
  simp only [hush]
  -- whether the ticket is in the one list and whether it is in the other
  by_cases ht : job.ticket ∈ ts <;> by_cases hu : job.ticket ∈ us <;> simp [ht, hu]

/-- A pass that nobody called off is as it was begun. -/
theorem asBegun_of_not_cancelled {job : Job} (h : job.cancelled = false) : job.asBegun = job := by
  rw [asBegun, ← h]

/-- A pass that nobody calls off does not give up. -/
theorem exists_result (job : Job) : ∃ segments, job.result = some segments := by
  unfold result Contour.fine
  dsimp only
  split <;> exact ⟨_, rfl⟩

end Job

namespace JobBoard

/-! ### Events -/

/-- Something that happens on a board. -/
inductive Event where
  /-- A pass was begun. -/
  | began (job : Job)
  /-- The pass of an equation was called off. -/
  | calledOff (id : Nat)
  /-- All passes were called off. -/
  | calledOffAll
  /-- A pass ended, and its result arrived. -/
  | ended (ticket : Nat)
  /-- The result of a pass was handed out. -/
  | handedOut (ticket : Nat) (result : Finished)

namespace Event

/-- Whether the event puts an end to the wait for the pass of an equation that was
begun before. -/
def Ends (id : Nat) : Event → Prop
  | began job => job.id = id
  | calledOff i => i = id
  | calledOffAll => True
  | ended _ => False
  | handedOut _ _ => False

/-- The pass that was begun. -/
def begun? : Event → Option Job
  | began job => some job
  | _ => none

/-- The ticket and the result that were handed out. -/
def handed? : Event → Option (Nat × Finished)
  | handedOut ticket result => some (ticket, result)
  | _ => none

/-- The event of taking the result of a pass. -/
def delivery (ticket : Nat) : Option Finished → List Event
  | some result => [handedOut ticket result]
  | none => []

end Event

/-- The passes that were begun, the latest first. -/
def begun (log : List Event) : List Job := log.filterMap Event.begun?

/-- The tickets and results that were handed out, the latest first. -/
def handed (log : List Event) : List (Nat × Finished) := log.filterMap Event.handed?

/-- The results that were handed out, in the order of the handing out. -/
def results (log : List Event) : List Finished := (handed log).reverse.map Prod.snd

/-- The pass was begun, and nothing has put an end to the wait for it since. -/
def Live (log : List Event) (job : Job) : Prop :=
  ∃ later earlier, log = later ++ .began job :: earlier ∧ ∀ e ∈ later, ¬ e.Ends job.id

/-- The pass is live, and its result was not handed out. -/
def Awaited (log : List Event) (job : Job) : Prop :=
  Live log job ∧ job.ticket ∉ (handed log).map Prod.fst

/-- The passes begun are those of which the history says so. -/
theorem mem_begun {log : List Event} {job : Job} : job ∈ begun log ↔ .began job ∈ log := by
  rw [begun, List.mem_filterMap]
  refine ⟨?_, fun h => ⟨_, h, rfl⟩⟩
  rintro ⟨e, he, hj⟩
  cases e with
  | began j =>
    obtain rfl : j = job := Option.some.inj hj
    exact he
  | calledOff | calledOffAll | ended | handedOut => cases hj

/-- A pass is live if it was begun just now, or if it was live and is left alone. -/
theorem live_cons {e : Event} {log : List Event} {job : Job} :
    Live (e :: log) job ↔ e = .began job ∨ (¬ e.Ends job.id ∧ Live log job) := by
  constructor
  · -- the pass was begun by the last event, or the last event left it alone
    rintro ⟨later, earlier, heq, hend⟩
    cases later with
    | nil => exact .inl (List.cons.inj heq).1
    | cons x later =>
      obtain ⟨rfl, rfl⟩ := List.cons.inj heq
      exact .inr ⟨hend _ List.mem_cons_self, later, earlier, rfl,
        fun y hy => hend y (List.mem_cons_of_mem _ hy)⟩
  · rintro (rfl | ⟨he, later, earlier, rfl, hend⟩)
    · exact ⟨[], log, rfl, by simp⟩
    · refine ⟨e :: later, earlier, rfl, fun y hy => ?_⟩
      rcases List.mem_cons.mp hy with rfl | hy
      · exact he
      · exact hend y hy

/-- Live passes were begun. -/
theorem Live.mem_begun {log : List Event} {job : Job} (h : Live log job) : job ∈ begun log := by
  obtain ⟨later, earlier, rfl, -⟩ := h
  exact JobBoard.mem_begun.mpr (by simp)

/-- An equation has at most one live pass, the one that it began last. -/
theorem Live.unique {log : List Event} {job job' : Job} (h : Live log job) (h' : Live log job')
    (hid : job.id = job'.id) : job = job' := by
  -- by induction on the history, from the latest event back
  induction log with
  | nil =>
    obtain ⟨later, earlier, heq, -⟩ := h
    simp at heq
  | cons e log ih =>
    rcases live_cons.mp h with rfl | ⟨he, h⟩
    · -- the other one would have been ended by the beginning of this one
      rcases live_cons.mp h' with heq | ⟨he', -⟩
      · exact Event.began.inj heq
      · exact absurd hid he'
    · rcases live_cons.mp h' with rfl | ⟨-, h'⟩
      · exact absurd hid.symm he
      · -- the latest event is about neither of them
        exact ih h h'

/-! ### Runs -/

/-- A running pass ends, and its result arrives. -/
def finish (b : JobBoard) (job : Job) (left : Option (List (Segment Float))) : JobBoard :=
  { b with
    running := b.running.filter fun other => other.ticket ≠ job.ticket
    arrived := b.arrived ++ [job.leaving left] }

/-- Takes the oldest result that has arrived. -/
def receive (b : JobBoard) : JobBoard × Option Finished :=
  match b.arrived with
  | [] => (b, none)
  | o :: rest =>
    ({ b with inFlight := (accept b.inFlight o).1, arrived := rest }, (accept b.inFlight o).2)

/-- **The boards that a history may lead to.** The owner acts in any order, and in
between any running pass may end. -/
inductive Run : List Event → JobBoard → Prop where
  /-- Nothing has happened yet. -/
  | start : Run [] .empty
  /-- A pass is begun. -/
  | spawn {log b} (id : Nat) (equation : Equation) (viewport : Viewport Float)
      (settings : Settings Float) : Run log b →
      Run (.began ⟨id, b.nextTicket, equation, viewport, settings, false⟩ :: log)
        (b.spawn id equation viewport settings)
  /-- The pass of an equation is called off. -/
  | cancel {log b} (id : Nat) : Run log b → Run (.calledOff id :: log) (b.cancel id)
  /-- All passes are called off. -/
  | cancelAll {log b} : Run log b → Run (.calledOffAll :: log) b.cancelAll
  /-- A pass ends in the background. -/
  | finish {log b} (job : Job) (left : Option (List (Segment Float))) :
      job ∈ b.running → Run log b → Run (.ended job.ticket :: log) (b.finish job left)
  /-- The oldest result that has arrived is taken. -/
  | receive {log b} (o : Outcome) : b.arrived.head? = some o → Run log b →
      Run (Event.delivery o.ticket b.receive.2 ++ log) b.receive.1

end JobBoard

end CurvePlot
