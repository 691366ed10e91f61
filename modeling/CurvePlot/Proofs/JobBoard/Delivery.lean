import CurvePlot.Proofs.JobBoard.Invariant
/-!
# What a job board hands out

`Run.handedOut_sound` is the promise that nothing stale is handed out: at the
moment of handing out, the pass is still the last one that its equation began, its
equation has not called it off, and the result is what the pass finds.
`Run.drain_complete` is the promise that nothing is lost: what has arrived and is
awaited is handed out by the next `drain`.

A `drain` takes one result after the other, and a `wait` lets every running pass
end before, so both are rows of steps (`Run.drain`, `Run.wait`).
-/

namespace CurvePlot.JobBoard

variable {log : List Event} {b : JobBoard}

/-! ### Nothing stale -/

/-- After this history, the result may be handed out under the ticket: the pass of the
ticket has ended, its equation has neither called it off nor begun another one, and
the result is what the pass finds. -/
def MayHandOut (earlier : List Event) (t : Nat) (f : Finished) : Prop :=
  ∃ job segments, Live earlier job ∧ job.ticket = t ∧ .ended t ∈ earlier ∧
    job.result = some segments ∧ f = ⟨job.id, job.viewport, segments⟩

/-- Whatever the history hands out may be handed out at that moment. -/
def Sound (log : List Event) : Prop :=
  ∀ later earlier t f, log = later ++ .handedOut t f :: earlier → MayHandOut earlier t f

/-- A sound history stays sound, if what the latest event hands out may be handed out. -/
theorem Sound.cons {e : Event} (h : Sound log) (he : ∀ t f, e = .handedOut t f → MayHandOut log t f) :
    Sound (e :: log) := by
  intro later earlier t f heq
  rcases List.cons_eq_append_iff.mp heq with ⟨-, heq⟩ | ⟨later, -, heq⟩
  · -- it is the latest event that hands out
    obtain ⟨rfl, rfl⟩ := List.cons.inj heq
    exact he t f rfl
  · -- it is an earlier event
    exact h later earlier t f heq

/-- **Nothing stale is handed out,** in whatever order things happen. -/
theorem Run.sound (h : Run log b) : Sound log := by
  induction h with
  | start => exact fun later earlier t f heq => by simp at heq
  | spawn id equation viewport settings _ ih => exact ih.cons nofun
  | cancel id _ ih => exact ih.cons nofun
  | cancelAll _ ih => exact ih.cons nofun
  | finish job left hj _ ih => exact ih.cons nofun
  | @receive log b o ho h ih =>
    obtain ⟨rest, hb⟩ := List.head?_eq_some_iff.mp ho
    have hmem : o ∈ b.arrived := hb ▸ List.mem_cons_self
    unfold JobBoard.receive
    rw [hb]
    rcases h.kept.accept_cases hmem with ⟨job, segments, hj, ht, hres, heq⟩ | ⟨-, heq⟩
    · -- the result is that of the awaited pass, which has ended
      simp only [heq]
      refine ih.cons fun t f he => ?_
      obtain ⟨rfl, rfl⟩ := Event.handedOut.inj he
      obtain ⟨other, hbegun, hend, -, hto, -⟩ := h.kept.arrived_from o hmem
      exact ⟨job, segments, hj.1, ht, hto ▸ hend, hres, rfl⟩
    · simp only [heq]
      exact ih

/-- What is handed out under the ticket of a pass is what this pass finds. -/
theorem Run.handed_eq (h : Run log b) {job : Job} {f : Finished} (hj : job ∈ begun log)
    (hf : (job.ticket, f) ∈ handed log) :
    ∃ segments, job.result = some segments ∧ f = ⟨job.id, job.viewport, segments⟩ := by
  -- at the moment of the handing out the result was that of a pass with this ticket
  obtain ⟨later, earlier, rfl⟩ := List.append_of_mem (mem_handed.mp hf)
  obtain ⟨other, segments, ho, ht, -, hresult, hfound⟩ := h.sound later earlier job.ticket f rfl
  have hbegun : other ∈ begun (later ++ .handedOut job.ticket f :: earlier) :=
    mem_begun.mpr (List.mem_append_right _ (List.mem_cons_of_mem _ (mem_begun.mp ho.mem_begun)))
  obtain rfl : other = job := h.kept.begun_inj hbegun hj ht
  exact ⟨segments, hresult, hfound⟩

/-- A result that is stale changes nothing but that it is gone. -/
theorem Run.receive_stale (h : Run log b) {o : Outcome} {rest : List Outcome}
    (hb : b.arrived = o :: rest) (hstale : ∀ job, Live log job → job.ticket ≠ o.ticket) :
    b.receive = ({ b with arrived := rest }, none) := by
  have hmem : o ∈ b.arrived := hb ▸ List.mem_cons_self
  unfold JobBoard.receive
  rw [hb]
  -- an awaited pass is live, and no live pass has this ticket
  rcases h.kept.accept_cases hmem with ⟨job, segments, hj, ht, -, -⟩ | ⟨-, heq⟩
  · exact absurd ht (hstale job hj.1)
  · simp only [heq]

/-! ### Draining and waiting -/

/-- Draining takes the oldest result and drains what is left. -/
theorem drain_cons {o : Outcome} {rest : List Outcome} (hb : b.arrived = o :: rest) :
    b.drain = (b.receive.1.drain.1, b.receive.2.toList ++ b.receive.1.drain.2) := by
  unfold drain JobBoard.receive
  rw [hb]
  rfl

/-- Where nothing has arrived, draining does nothing. -/
theorem drain_nil (hb : b.arrived = []) : b.drain = (b, []) := by
  cases b
  cases hb
  rfl

/-- Taking one result hands out that result, or nothing. -/
@[simp]
theorem results_delivery (t : Nat) (f : Option Finished) :
    results (Event.delivery t f) = f.toList := by
  cases f <;> rfl

/-- **A drain is a row of steps,** which hand out what the drain hands out. Nothing else
happens meanwhile. -/
theorem Run.drain (h : Run log b) : ∃ later, Run (later ++ log) b.drain.1 ∧
    results later = b.drain.2 ∧ ∀ e ∈ later, ∃ t f, e = .handedOut t f := by
  -- by induction on what has arrived, the oldest first
  generalize hn : b.arrived = arrived
  induction arrived generalizing log b with
  | nil =>
    rw [drain_nil hn]
    exact ⟨[], h, rfl, by simp⟩
  | cons o rest ih =>
    have hrest : b.receive.1.arrived = rest := by simp [JobBoard.receive, hn]
    obtain ⟨later, hrun, hres, hall⟩ := ih (.receive o (by rw [hn]; rfl) h) hrest
    rw [drain_cons hn]
    refine ⟨later ++ Event.delivery o.ticket b.receive.2, ?_, ?_, ?_⟩
    · -- these steps come after the first one
      rw [List.append_assoc]
      exact hrun
    · rw [results_append, results_delivery, hres]
    · intro e he
      rcases List.mem_append.mp he with he | he
      · -- a later result was handed out
        exact hall e he
      · cases hf : b.receive.2 with
        | none => simp [hf, Event.delivery] at he
        | some f => exact ⟨o.ticket, f, by simpa [hf, Event.delivery] using he⟩

/-- A drained board holds no results. -/
theorem arrived_drain (b : JobBoard) : b.drain.1.arrived = [] := rfl

/-- Where nothing runs and nothing has arrived, nothing is awaited. -/
theorem Kept.runningCount_eq_zero (h : Kept log b) (hrunning : b.running = [])
    (harrived : b.arrived = []) : b.runningCount = 0 := by
  refine List.length_eq_zero_iff.mpr (List.eq_nil_iff_forall_not_mem.mpr fun e he => ?_)
  obtain ⟨job, hjob, -⟩ := (h.inFlight_iff e.1 e.2).mp (Keyed.get?_eq_some_iff.mpr he)
  rcases h.awaited_somewhere job hjob with hr | ⟨o, ho, -⟩
  · rw [hrunning] at hr
    cases hr
  · rw [harrived] at ho
    cases ho

/-- Where no pass is counted, none is in flight. -/
theorem get?_inFlight_of_runningCount (h : b.runningCount = 0) (id : Nat) :
    b.inFlight.get? id = none := by
  rw [Option.eq_none_iff_forall_ne_some]
  intro x hx
  have hmem := Keyed.get?_eq_some_iff.mp hx
  rw [List.length_eq_zero_iff.mp h] at hmem
  cases hmem

/-- What a pass leaves is one of the things that the history lets it leave. -/
theorem leaving_outcome (job : Job) : job.leaving (outcome job).segments = outcome job := by
  unfold outcome Job.leaving
  split
  · rfl
  · next hc => rw [Job.result, Bool.eq_false_iff.mpr hc]

/-- Where nothing runs, there is nothing to let end. -/
theorem completeAll_nil (hb : b.running = []) : b.completeAll = b := by
  unfold completeAll
  rw [hb, List.map_nil, List.append_nil, ← hb]

/-- To let every pass end is to let the oldest end and then the others. -/
theorem completeAll_cons {job : Job} {rest : List Job} (hb : b.running = job :: rest)
    (hnodup : (b.running.map Job.ticket).Nodup) :
    (b.finish job (outcome job).segments).running = rest ∧
      b.completeAll = (b.finish job (outcome job).segments).completeAll := by
  rw [hb, List.map_cons, List.nodup_cons] at hnodup
  -- no other pass has the ticket of the oldest, so no other is taken off the list with it
  have hrest : rest.filter (fun other => other.ticket ≠ job.ticket) = rest := by
    refine List.filter_eq_self.mpr fun other ho => decide_eq_true fun heq => hnodup.1 ?_
    exact List.mem_map.mpr ⟨other, ho, heq⟩
  have hrun : (b.finish job (outcome job).segments).running = rest := by
    -- the oldest pass goes, since it has its own ticket
    show b.running.filter _ = rest
    rw [hb, List.filter_cons_of_neg (by simp), hrest]
  refine ⟨hrun, ?_⟩
  unfold completeAll
  rw [hrun, hb, List.map_cons]
  show _ = JobBoard.mk _ _ _ ((b.arrived ++ [job.leaving (outcome job).segments]) ++ _)
  rw [leaving_outcome, List.append_assoc]
  rfl

/-- All running passes may end, one after the other. -/
theorem Run.completeAll (h : Run log b) :
    ∃ later, Run (later ++ log) b.completeAll ∧ results later = [] := by
  -- by induction on what runs, the oldest first
  generalize hn : b.running = running
  induction running generalizing log b with
  | nil =>
    rw [completeAll_nil hn]
    exact ⟨[], h, rfl⟩
  | cons job rest ih =>
    obtain ⟨hrun, hall⟩ := completeAll_cons hn h.kept.running_nodup
    obtain ⟨later, hlater, hres⟩ :=
      ih (.finish job (outcome job).segments (hn ▸ List.mem_cons_self) h) hrun
    refine ⟨later ++ [.ended job.ticket], ?_, ?_⟩
    · rw [List.append_assoc, hall]
      exact hlater
    · rw [results_append, hres]
      rfl

/-- **A wait is a row of steps,** which hand out what the wait hands out. -/
theorem Run.wait (h : Run log b) :
    ∃ later, Run (later ++ log) b.wait.1 ∧ results later = b.wait.2 := by
  -- first every running pass ends, which hands out nothing, and then the drain hands out
  obtain ⟨before, hbefore, hnone⟩ := h.completeAll
  obtain ⟨later, hlater, hres, -⟩ := hbefore.drain
  refine ⟨later ++ before, ?_, ?_⟩
  · rw [List.append_assoc]
    exact hlater
  · rw [results_append, hnone, hres]
    rfl

/-! ### Nothing lost -/

/-- Handing out ends no life. -/
theorem live_append {later : List Event} (hall : ∀ e ∈ later, ∃ t f, e = .handedOut t f)
    {job : Job} : Live (later ++ log) job ↔ Live log job := by
  induction later with
  | nil => rfl
  | cons e later ih =>
    obtain ⟨t, f, rfl⟩ := hall e List.mem_cons_self
    rw [List.cons_append, live_handedOut, ih fun e he => hall e (List.mem_cons_of_mem _ he)]

/-- **Nothing is lost:** a pass that is awaited and has ended is handed out by the next
drain, and then no pass of its equation runs. -/
theorem Run.drain_complete (h : Run log b) {job : Job} (hj : Awaited log job)
    (hend : .ended job.ticket ∈ log) : ∃ segments, job.result = some segments ∧
      ⟨job.id, job.viewport, segments⟩ ∈ b.drain.2 ∧ b.drain.1.isRunning job.id = false := by
  obtain ⟨later, hrun, hres, hall⟩ := h.drain
  have hlive : Live (later ++ log) job := (live_append hall).mpr hj.1
  -- after the drain the pass neither runs nor has a result on the board
  have hnot : ¬ Awaited (later ++ log) job := by
    intro ha
    rcases hrun.kept.awaited_somewhere job ha with hr | ⟨o, ho, -⟩
    · exact hrun.kept.running_not_ended job hr (List.mem_append_right _ hend)
    · rw [arrived_drain] at ho
      cases ho
  -- it is not awaited any more, so it must have been handed out, and only just now
  have hhanded : job.ticket ∈ (handed later).map Prod.fst := by
    have hmem : job.ticket ∈ (handed (later ++ log)).map Prod.fst :=
      not_not.mp fun hno => hnot ⟨hlive, hno⟩
    rw [handed_append, List.map_append, List.mem_append] at hmem
    exact hmem.resolve_right hj.2
  obtain ⟨⟨t, f⟩, hmem, rfl⟩ := List.mem_map.mp hhanded
  have hmem' : (job.ticket, f) ∈ handed (later ++ log) := by
    rw [handed_append]
    exact List.mem_append_left _ hmem
  -- what was handed out under its ticket is what the pass finds
  obtain ⟨segments, hresult, rfl⟩ := hrun.handed_eq hlive.mem_begun hmem'
  refine ⟨segments, hresult, ?_, ?_⟩
  · rw [← hres]
    exact List.mem_map.mpr ⟨_, List.mem_reverse.mpr hmem, rfl⟩
  · -- a pass that ran now would be live, hence the one that is not awaited any more
    rw [isRunning, Keyed.contains, Option.isSome_eq_false_iff, Option.isNone_iff_eq_none,
      Option.eq_none_iff_forall_ne_some]
    intro x hx
    obtain ⟨third, h3, hid, -⟩ := (hrun.kept.inFlight_iff _ _).mp hx
    exact hnot (h3.1.unique hlive hid ▸ h3)

/-! ### The promise -/

/-- **What the owner of a board may rely on.** -/
structure Delivery (log : List Event) (b : JobBoard) : Prop where
  /-- No ticket is given out twice. -/
  tickets_nodup : ((begun log).map Job.ticket).Nodup
  /-- In flight is one pass of an equation at most: the last that it began, unless that
  was called off or has been handed out. -/
  isRunning_iff : ∀ id, b.isRunning id = true ↔ ∃! job, Awaited log job ∧ job.id = id
  /-- Of the passes of an equation, all that run but one at most know that they were
  called off. -/
  running_unique : ∀ job ∈ b.running, ∀ job' ∈ b.running, job.cancelled = false →
    job'.cancelled = false → job.id = job'.id → job = job'
  /-- No result is handed out twice. -/
  handed_nodup : ((handed log).map Prod.fst).Nodup
  /-- A result is handed out only while its pass is the last that its equation began
  and is not called off; it is what this pass finds, with its equation and its view. -/
  handed_sound : ∀ later earlier t f, log = later ++ .handedOut t f :: earlier →
    ∃ job segments, Live earlier job ∧ job.ticket = t ∧ .ended t ∈ earlier ∧
      job.result = some segments ∧ f = ⟨job.id, job.viewport, segments⟩
  /-- The result of a pass that was called off or superseded is dropped, and what is
  in flight stays in flight. -/
  stale_dropped : ∀ o rest, b.arrived = o :: rest →
    (∀ job, Live log job → job.ticket ≠ o.ticket) →
      b.receive = ({ b with arrived := rest }, none)
  /-- What has ended and was neither called off, superseded nor handed out is handed
  out by a drain, and does not run any more. -/
  drain_complete : ∀ job, Live log job → .ended job.ticket ∈ log →
    job.ticket ∉ (handed log).map Prod.fst → ∃ segments, job.result = some segments ∧
      ⟨job.id, job.viewport, segments⟩ ∈ b.drain.2 ∧ b.drain.1.isRunning job.id = false
  /-- To drain the board is to take results one after the other. -/
  drain_run : ∃ later, Run (later ++ log) b.drain.1 ∧ results later = b.drain.2
  /-- To wait is to let what runs end and take results one after the other. -/
  wait_run : ∃ later, Run (later ++ log) b.wait.1 ∧ results later = b.wait.2

/-- An equation has a pass in flight exactly if it awaits one, which then is the only one. -/
theorem Kept.isRunning_iff (h : Kept log b) (id : Nat) :
    b.isRunning id = true ↔ ∃! job, Awaited log job ∧ job.id = id := by
  rw [isRunning, Keyed.contains, Option.isSome_iff_exists]
  constructor
  · rintro ⟨x, hx⟩
    obtain ⟨job, hj, rfl, -⟩ := (h.inFlight_iff _ _).mp hx
    exact ⟨job, ⟨hj, rfl⟩, fun other ho => ho.1.1.unique hj.1 ho.2⟩
  · rintro ⟨job, ⟨hj, rfl⟩, -⟩
    exact ⟨_, h.inFlight_of_awaited hj⟩

/-- Two running passes of one equation that were not called off are one. -/
theorem Kept.running_unique (h : Kept log b) {job job' : Job} (hj : job ∈ b.running)
    (hj' : job' ∈ b.running) (hc : job.cancelled = false) (hc' : job'.cancelled = false)
    (hid : job.id = job'.id) : job = job' := by
  -- both are live, and an equation has but one live pass
  have heq : job.asBegun = job'.asBegun :=
    ((h.running_live job hj).mp hc).unique ((h.running_live job' hj').mp hc') hid
  rwa [Job.asBegun_of_not_cancelled hc, Job.asBegun_of_not_cancelled hc'] at heq

/-- **The board keeps its promise after every history:** whatever the order in which
passes are begun, called off, end and are taken. -/
theorem Run.delivery (h : Run log b) : Delivery log b where
  tickets_nodup := h.kept.begun_nodup
  isRunning_iff := h.kept.isRunning_iff
  running_unique _ hj _ hj' := h.kept.running_unique hj hj'
  handed_nodup := h.kept.handed_nodup
  handed_sound := h.sound
  stale_dropped _ _ hb hstale := h.receive_stale hb hstale
  drain_complete _ hl hend hno := h.drain_complete ⟨hl, hno⟩ hend
  drain_run := by
    obtain ⟨later, hrun, hres, -⟩ := h.drain
    exact ⟨later, hrun, hres⟩
  wait_run := h.wait

/-- An equation begins a second pass while its first is running, and the first ends. -/
theorem Run.delivery_respawned :
    let eq : Equation := ⟨"", .implicit, .ok .undefined, .empty⟩
    let view : Viewport Float := ⟨⟨0.0, 0.0, 50.0⟩, 800.0, 600.0⟩
    let first : Job := ⟨7, 0, eq, view, .standard, true⟩
    Delivery
      [.ended 0, .began ⟨7, 1, eq, view, .standard, false⟩,
        .began ⟨7, 0, eq, view, .standard, false⟩]
      (((empty.spawn 7 eq view .standard).spawn 7 eq view .standard).finish first none) :=
  Run.delivery (.finish _ none List.mem_cons_self (.spawn 7 _ _ _ (.spawn 7 _ _ _ .start)))

end CurvePlot.JobBoard
