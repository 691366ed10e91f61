import CurvePlot.Proofs.JobBoard.History
import Mathlib.Data.List.Nodup
/-!
# A job board and its history

Old results stay on a board after their passes were called off or superseded, so
nothing but the tickets keeps them from being handed out. `JobBoard.Kept` ties the
board to its history:

* a pass is in flight exactly if it is awaited (`inFlight_iff`);
* a pass that still runs was called off exactly if it is no longer live
  (`running_live`), and its result has not arrived (`running_not_ended`);
* a result on the board comes from a pass that was begun, and if that pass is still
  live, it is what the pass finds (`arrived_from`);
* an awaited pass is still running, or its result lies on the board
  (`awaited_somewhere`).

The first three keep anything stale from being handed out, the last one keeps
anything from being lost. `Run.kept` proves them for every history, with one lemma
for each step.
-/

namespace CurvePlot.JobBoard

/-! ### Reading events off a history -/

section Logs

variable {log : List Event} {job : Job}

@[simp]
theorem begun_began (log : List Event) (job : Job) :
    begun (.began job :: log) = job :: begun log := rfl

@[simp]
theorem begun_ended (log : List Event) (t : Nat) : begun (.ended t :: log) = begun log := rfl

@[simp]
theorem begun_handedOut (log : List Event) (t : Nat) (f : Finished) :
    begun (.handedOut t f :: log) = begun log := rfl

@[simp]
theorem handed_began (log : List Event) (job : Job) :
    handed (.began job :: log) = handed log := rfl

@[simp]
theorem handed_ended (log : List Event) (t : Nat) : handed (.ended t :: log) = handed log := rfl

@[simp]
theorem handed_handedOut (log : List Event) (t : Nat) (f : Finished) :
    handed (.handedOut t f :: log) = (t, f) :: handed log := rfl

/-- What was handed out later stands in front. -/
theorem handed_append (later log : List Event) :
    handed (later ++ log) = handed later ++ handed log :=
  List.filterMap_append

/-- The results of a longer history follow those of the shorter one. -/
theorem results_append (later log : List Event) :
    results (later ++ log) = results log ++ results later := by
  simp [results, handed_append]

/-- A result is among those handed out exactly if the history says so. -/
theorem mem_handed {t : Nat} {f : Finished} : (t, f) ∈ handed log ↔ .handedOut t f ∈ log := by
  rw [handed, List.mem_filterMap]
  refine ⟨?_, fun h => ⟨_, h, rfl⟩⟩
  rintro ⟨e, he, hf⟩
  cases e with
  | handedOut u g =>
    obtain ⟨rfl, rfl⟩ := Prod.mk.inj (Option.some.inj hf)
    exact he
  | began | calledOff | calledOffAll | ended => cases hf

/-- That a pass ends does not change what is live. -/
theorem live_ended {t : Nat} : Live (.ended t :: log) job ↔ Live log job := by
  rw [live_cons]
  simp [Event.Ends]

/-- Nor does it change what is live that a result is handed out. -/
theorem live_handedOut {t : Nat} {f : Finished} :
    Live (.handedOut t f :: log) job ↔ Live log job := by
  rw [live_cons]
  simp [Event.Ends]

/-- Calling off an equation leaves live what belongs to the others. -/
theorem live_calledOff {id : Nat} :
    Live (.calledOff id :: log) job ↔ job.id ≠ id ∧ Live log job := by
  rw [live_cons]
  simp [Event.Ends, eq_comm]

/-- Beginning a pass calls off the one that its equation had. -/
theorem live_began {other : Job} :
    Live (.began job :: log) other ↔ other = job ∨ Live (.calledOff job.id :: log) other := by
  rw [live_cons, live_calledOff]
  simp [Event.Ends, eq_comm]

/-- A pass that has ended is awaited as before. -/
theorem awaited_ended {t : Nat} : Awaited (.ended t :: log) job ↔ Awaited log job := by
  rw [Awaited, Awaited, live_ended, handed_ended]

/-- Handing out a result ends the wait for it, and no other. -/
theorem awaited_handedOut {t : Nat} {f : Finished} :
    Awaited (.handedOut t f :: log) job ↔ Awaited log job ∧ job.ticket ≠ t := by
  rw [Awaited, Awaited, live_handedOut, handed_handedOut, List.map_cons, List.mem_cons, not_or]
  tauto

end Logs

/-! ### The invariant -/

/-- **The board agrees with its history.** -/
structure Kept (log : List Event) (b : JobBoard) : Prop where
  /-- Tickets are given out in ascending order. -/
  begun_lt : ∀ job ∈ begun log, job.ticket < b.nextTicket
  /-- No ticket is given out twice. -/
  begun_nodup : ((begun log).map Job.ticket).Nodup
  /-- Only passes that were begun end. -/
  ended_lt : ∀ t, .ended t ∈ log → t < b.nextTicket
  /-- In flight is what is awaited. -/
  inFlight_iff : ∀ id x, b.inFlight.get? id = some x ↔
    ∃ job, Awaited log job ∧ job.id = id ∧ x = ⟨job.ticket, job.viewport⟩
  /-- No pass runs twice. -/
  running_nodup : (b.running.map Job.ticket).Nodup
  /-- Only passes that were begun run. -/
  running_begun : ∀ job ∈ b.running, job.asBegun ∈ begun log
  /-- Called off are exactly the passes that are no longer live. -/
  running_live : ∀ job ∈ b.running, job.cancelled = false ↔ Live log job.asBegun
  /-- What runs has not ended. -/
  running_not_ended : ∀ job ∈ b.running, .ended job.ticket ∉ log
  /-- Results come from passes, and from a live pass the true one. -/
  arrived_from : ∀ o ∈ b.arrived, ∃ job ∈ begun log, .ended job.ticket ∈ log ∧
    o.id = job.id ∧ o.ticket = job.ticket ∧ o.viewport = job.viewport ∧
    (Live log job → o.segments = job.result)
  /-- What is awaited has not been lost. -/
  awaited_somewhere : ∀ job, Awaited log job →
    job ∈ b.running ∨ ∃ o ∈ b.arrived, o.ticket = job.ticket
  /-- No result is handed out twice. -/
  handed_nodup : ((handed log).map Prod.fst).Nodup
  /-- Only results that have arrived are handed out. -/
  handed_ended : ∀ p ∈ handed log, .ended p.1 ∈ log

namespace Kept

variable {log : List Event} {b : JobBoard}

/-- Nothing has happened on the empty board. -/
theorem empty : Kept [] .empty where
  begun_lt := by simp [begun]
  begun_nodup := by simp [begun]
  ended_lt := by simp
  inFlight_iff := by
    intro id x
    constructor
    · intro h
      cases h
    · -- no pass is awaited, since none was begun
      rintro ⟨job, ⟨⟨later, earlier, heq, -⟩, -⟩, -, -⟩
      simp at heq
  running_nodup := by simp [JobBoard.empty]
  running_begun := by simp [JobBoard.empty]
  running_live := by simp [JobBoard.empty]
  running_not_ended := by simp
  arrived_from := by simp [JobBoard.empty]
  awaited_somewhere := by
    rintro job ⟨⟨later, earlier, heq, -⟩, -⟩
    simp at heq
  handed_nodup := by simp [handed]
  handed_ended := by simp [handed]

/-- A ticket belongs to one pass. -/
theorem begun_inj (h : Kept log b) {job job' : Job} (hj : job ∈ begun log)
    (hj' : job' ∈ begun log) (ht : job.ticket = job'.ticket) : job = job' :=
  List.inj_on_of_nodup_map h.begun_nodup hj hj' ht

/-- Results are handed out only after their passes have ended. -/
theorem not_handed_of_not_ended (h : Kept log b) {t : Nat} (ht : .ended t ∉ log) :
    t ∉ (handed log).map Prod.fst := by
  intro hmem
  obtain ⟨p, hp, rfl⟩ := List.mem_map.mp hmem
  exact ht (h.handed_ended p hp)

/-- A live pass that still runs is awaited. -/
theorem awaited_of_running (h : Kept log b) {job : Job} (hj : job ∈ b.running)
    (hl : Live log job.asBegun) : Awaited log job.asBegun :=
  ⟨hl, h.not_handed_of_not_ended (h.running_not_ended job hj)⟩

/-- An awaited pass is the one in flight for its equation. -/
theorem inFlight_of_awaited (h : Kept log b) {job : Job} (hj : Awaited log job) :
    b.inFlight.get? job.id = some ⟨job.ticket, job.viewport⟩ :=
  (h.inFlight_iff _ _).mpr ⟨job, hj, rfl, rfl⟩

/-- Two awaited passes of one equation are one. -/
theorem id_eq_iff (h : Kept log b) {job job' : Job} (hj : Awaited log job)
    (hj' : Awaited log job') : job.id = job'.id ↔ job.ticket = job'.ticket := by
  constructor
  · -- an equation has one live pass
    intro hid
    rw [hj.1.unique hj'.1 hid]
  · -- and a ticket belongs to one pass
    intro ht
    rw [h.begun_inj hj.1.mem_begun hj'.1.mem_begun ht]

/-- The tickets to come were not given out yet. -/
theorem not_begun (h : Kept log b) {t : Nat} (ht : b.nextTicket ≤ t) :
    t ∉ (begun log).map Job.ticket := by
  intro hmem
  obtain ⟨job, hj, rfl⟩ := List.mem_map.mp hmem
  exact Nat.not_lt.mpr ht (h.begun_lt job hj)

/-- Nothing was handed out under the tickets to come. -/
theorem not_handed (h : Kept log b) {t : Nat} (ht : b.nextTicket ≤ t) :
    t ∉ (handed log).map Prod.fst :=
  h.not_handed_of_not_ended fun hend => Nat.not_lt.mpr ht (h.ended_lt t hend)

/-- What runs has a ticket that was given out. -/
theorem running_lt (h : Kept log b) {job : Job} (hj : job ∈ b.running) :
    job.ticket < b.nextTicket :=
  h.begun_lt job.asBegun (h.running_begun job hj)

end Kept

/-! ### Calling off -/

/-- What it does to a board to call off what the event says. -/
structure CallsOff (e : Event) (b b' : JobBoard) (tickets : List Nat) : Prop where
  /-- No ticket is given out. -/
  nextTicket_eq : b'.nextTicket = b.nextTicket
  /-- No result goes and none comes. -/
  arrived_eq : b'.arrived = b.arrived
  /-- What the event ends is in flight no more. -/
  inFlight_iff : ∀ id x,
    b'.inFlight.get? id = some x ↔ ¬ e.Ends id ∧ b.inFlight.get? id = some x
  /-- The passes that run hear of it by their tickets. -/
  running_eq : b'.running = b.running.map (Job.hush tickets)
  /-- The tickets are those of the passes that the event ends. -/
  mem_tickets : ∀ t, t ∈ tickets ↔
    ∃ id x, e.Ends id ∧ b.inFlight.get? id = some x ∧ x.ticket = t

/-- What is said of every running pass is said of the passes that ran before, once they have heard. -/
theorem CallsOff.forall_running {e : Event} {b b' : JobBoard} {tickets : List Nat}
    (hc : CallsOff e b b' tickets) {P : Job → Prop} :
    (∀ heard ∈ b'.running, P heard) ↔ ∀ job ∈ b.running, P (job.hush tickets) := by
  rw [hc.running_eq, List.forall_mem_map]

/-- To signal one ticket is to let it be heard. -/
theorem signal_eq (t : Nat) (jobs : List Job) : signal t jobs = jobs.map (Job.hush [t]) := by
  simp [signal, Job.hush]

/-- Signals one after another are heard as all of them at once. -/
theorem foldl_signal (xs : List InFlight) (jobs : List Job) :
    xs.foldl (fun jobs x => signal x.ticket jobs) jobs =
      jobs.map (Job.hush (xs.map InFlight.ticket)) := by
  induction xs generalizing jobs with
  | nil => exact (List.map_id'' Job.hush_nil jobs).symm
  | cons x xs ih =>
    rw [List.foldl_cons, ih, signal_eq, List.map_map]
    refine List.map_congr_left fun job _ => ?_
    rw [Function.comp_apply, Job.hush_append]
    rfl

/-- Calling off one equation signals the pass that is in flight for it. -/
theorem callsOff_cancel (b : JobBoard) (id : Nat) :
    ∃ tickets, CallsOff (.calledOff id) b (b.cancel id) tickets := by
  unfold cancel
  split
  · next hnone =>
    -- nothing is in flight, so nobody hears of it
    refine ⟨[], rfl, rfl, fun i x => ?_,
      (List.map_id'' Job.hush_nil _).symm, fun t => ?_⟩
    · refine ⟨fun hx => ⟨?_, hx⟩, fun hx => hx.2⟩
      rintro rfl
      rw [hnone] at hx
      cases hx
    · refine ⟨fun ht => by simp at ht, ?_⟩
      rintro ⟨i, x, rfl, hx, -⟩
      rw [hnone] at hx
      cases hx
  · next y hsome =>
    -- the one pass in flight hears of it
    refine ⟨[y.ticket], rfl, rfl, fun i x => ?_, signal_eq _ _, fun t => ?_⟩
    · rw [Keyed.get?_erase]
      simp only [Key.rank_nat, Event.Ends]
      split <;> simp_all
    · rw [List.mem_singleton]
      constructor
      · rintro rfl
        exact ⟨id, y, rfl, hsome, rfl⟩
      · rintro ⟨i, x, rfl, hx, rfl⟩
        rw [hsome] at hx
        rw [Option.some.inj hx]

/-- Calling off everything signals all that is in flight. -/
theorem callsOff_cancelAll (b : JobBoard) :
    ∃ tickets, CallsOff .calledOffAll b b.cancelAll tickets := by
  refine ⟨b.inFlight.values.map InFlight.ticket, rfl, rfl, fun i x => ?_,
    foldl_signal _ _, fun t => ?_⟩
  · simp [cancelAll, Event.Ends]
  · rw [List.mem_map]
    constructor
    · rintro ⟨x, hx, rfl⟩
      obtain ⟨id, hx⟩ := Keyed.mem_values.mp hx
      exact ⟨id, x, trivial, hx, rfl⟩
    · rintro ⟨id, x, -, hx, rfl⟩
      exact ⟨x, Keyed.mem_values.mpr ⟨id, hx⟩, rfl⟩

namespace Kept

variable {log : List Event} {b b' : JobBoard}

/-- Exactly the awaited passes that the event ends hear of it. -/
theorem mem_tickets_iff (h : Kept log b) {e : Event} {tickets : List Nat}
    (hc : CallsOff e b b' tickets) {job : Job} (hj : Awaited log job) :
    job.ticket ∈ tickets ↔ e.Ends job.id := by
  rw [hc.mem_tickets]
  constructor
  · -- the ticket is in flight for an equation that the event ends, so it is that of this pass
    rintro ⟨id, x, he, hx, ht⟩
    obtain ⟨other, ho, rfl, rfl⟩ := (h.inFlight_iff _ _).mp hx
    obtain rfl : other = job := h.begun_inj ho.1.mem_begun hj.1.mem_begun ht
    exact he
  · intro he
    exact ⟨job.id, _, he, h.inFlight_of_awaited hj, rfl⟩

/-- **Calling off keeps the board and its history together.** -/
theorem callOff (h : Kept log b) {e : Event} {tickets : List Nat}
    (he : (∃ id, e = .calledOff id) ∨ e = .calledOffAll) (hc : CallsOff e b b' tickets) :
    Kept (e :: log) b' := by
  -- the event begins nothing, ends nothing and hands out nothing
  have hbegun : begun (e :: log) = begun log := by
    rcases he with ⟨id, rfl⟩ | rfl <;> rfl
  have hhanded : handed (e :: log) = handed log := by
    rcases he with ⟨id, rfl⟩ | rfl <;> rfl
  have hended : ∀ t, .ended t ∈ e :: log ↔ .ended t ∈ log := by
    intro t
    rcases he with ⟨id, rfl⟩ | rfl <;> simp
  -- it puts an end to the waits that it is about, and to no other
  have hlive : ∀ job, Live (e :: log) job ↔ ¬ e.Ends job.id ∧ Live log job := by
    intro job
    rw [live_cons]
    rcases he with ⟨id, rfl⟩ | rfl <;> simp
  have hawaited : ∀ job, Awaited (e :: log) job ↔ ¬ e.Ends job.id ∧ Awaited log job := by
    intro job
    rw [Awaited, Awaited, hlive, hhanded, and_assoc]
  exact
    { begun_lt := by
        rw [hbegun, hc.nextTicket_eq]
        exact h.begun_lt
      begun_nodup := by
        rw [hbegun]
        exact h.begun_nodup
      ended_lt := by
        intro t ht
        rw [hc.nextTicket_eq]
        exact h.ended_lt t ((hended t).mp ht)
      inFlight_iff := by
        intro id x
        rw [hc.inFlight_iff, h.inFlight_iff]
        constructor
        · -- what is in flight after the event was so before, and the event is not about it
          rintro ⟨hne, job, hj, rfl, rfl⟩
          exact ⟨job, (hawaited job).mpr ⟨hne, hj⟩, rfl, rfl⟩
        · rintro ⟨job, hj, rfl, rfl⟩
          obtain ⟨hne, hj⟩ := (hawaited job).mp hj
          exact ⟨hne, job, hj, rfl, rfl⟩
      running_nodup := by
        rw [hc.running_eq, List.map_map]
        simpa [Function.comp_def] using h.running_nodup
      running_begun := hc.forall_running.mpr fun job hj => by
        rw [Job.asBegun_hush, hbegun]
        exact h.running_begun job hj
      running_live := hc.forall_running.mpr fun job hj => by
        -- a running pass hears of it exactly if it was live and the event ends it
        rw [Job.cancelled_hush, Job.asBegun_hush, h.running_live job hj, hlive, and_comm]
        refine and_congr_left fun hl => not_congr ?_
        show job.asBegun.ticket ∈ tickets ↔ e.Ends job.asBegun.id
        exact h.mem_tickets_iff hc (h.awaited_of_running hj hl)
      running_not_ended := hc.forall_running.mpr fun job hj => by
        rw [Job.ticket_hush, hended]
        exact h.running_not_ended job hj
      arrived_from := by
        intro o ho
        rw [hc.arrived_eq] at ho
        obtain ⟨job, hj, hend, hid, ht, hv, hres⟩ := h.arrived_from o ho
        exact ⟨job, hbegun ▸ hj, (hended _).mpr hend, hid, ht, hv,
          fun hl => hres ((hlive job).mp hl).2⟩
      awaited_somewhere := by
        -- what is still awaited heard nothing, so it runs as before
        intro job hj
        obtain ⟨hne, hj⟩ := (hawaited job).mp hj
        rw [hc.running_eq, hc.arrived_eq]
        refine (h.awaited_somewhere job hj).imp_left fun hrun => List.mem_map.mpr ⟨job, hrun, ?_⟩
        exact if_neg fun ht => hne ((h.mem_tickets_iff hc hj).mp ht)
      handed_nodup := by
        rw [hhanded]
        exact h.handed_nodup
      handed_ended := by
        intro p hp
        exact (hended _).mpr (h.handed_ended p (hhanded ▸ hp)) }

/-- Calling off one equation keeps the invariant. -/
theorem cancel (h : Kept log b) (id : Nat) : Kept (.calledOff id :: log) (b.cancel id) := by
  obtain ⟨tickets, hc⟩ := callsOff_cancel b id
  exact h.callOff (.inl ⟨id, rfl⟩) hc

/-- Calling off every equation keeps the invariant. -/
theorem cancelAll (h : Kept log b) : Kept (.calledOffAll :: log) b.cancelAll := by
  obtain ⟨tickets, hc⟩ := callsOff_cancelAll b
  exact h.callOff (.inr rfl) hc

end Kept

/-! ### Beginning a pass -/

/-- The board on which a new pass of an equation has begun. -/
def beginJob (c : JobBoard) (job : Job) : JobBoard :=
  { c with
    nextTicket := c.nextTicket + 1
    inFlight := c.inFlight.insert job.id ⟨job.ticket, job.viewport⟩
    running := c.running ++ [job] }

/-- Calling off gives out no ticket. -/
@[simp]
theorem nextTicket_cancel (b : JobBoard) (id : Nat) : (b.cancel id).nextTicket = b.nextTicket := by
  unfold JobBoard.cancel
  split <;> rfl

/-- To spawn is to call off and then to begin. -/
theorem spawn_eq (b : JobBoard) (id : Nat) (equation : Equation) (viewport : Viewport Float)
    (settings : Settings Float) :
    b.spawn id equation viewport settings =
      (b.cancel id).beginJob ⟨id, b.nextTicket, equation, viewport, settings, false⟩ := by
  rw [← nextTicket_cancel b id]
  rfl

section Begin

variable {log : List Event} {c : JobBoard} {job : Job}

/-- A new pass is awaited, and it takes the place of the one that its equation had. -/
theorem Kept.awaited_began (h : Kept (.calledOff job.id :: log) c)
    (ht : job.ticket = c.nextTicket) {other : Job} :
    Awaited (.began job :: log) other ↔ other = job ∨ Awaited (.calledOff job.id :: log) other := by
  rw [Awaited, Awaited, live_began]
  constructor
  · rintro ⟨hl, hn⟩
    exact hl.imp_right fun hl => ⟨hl, hn⟩
  · -- the ticket of the new pass is fresh, so nothing was handed out under it
    rintro (rfl | ⟨hl, hn⟩)
    · exact ⟨.inl rfl, h.not_handed (Nat.le_of_eq ht.symm)⟩
    · exact ⟨.inr hl, hn⟩

/-- After the beginning of a pass too, what is in flight is what is awaited. -/
theorem Kept.inFlight_beginJob (h : Kept (.calledOff job.id :: log) c)
    (ht : job.ticket = c.nextTicket) (id : Nat) (x : InFlight) :
    (c.beginJob job).inFlight.get? id = some x ↔
      ∃ other, Awaited (.began job :: log) other ∧ other.id = id ∧
        x = ⟨other.ticket, other.viewport⟩ := by
  -- whatever was live for the same equation has been called off just before
  have hother : ∀ other, Awaited (.calledOff job.id :: log) other → other.id ≠ job.id :=
    fun other ho => (live_calledOff.mp ho.1).1
  by_cases hid : id = job.id
  · subst hid
    rw [JobBoard.beginJob, Keyed.get?_insert_self]
    constructor
    · -- the entry is the one just written
      intro hx
      exact ⟨job, (h.awaited_began ht).mpr (.inl rfl), rfl, (Option.some.inj hx).symm⟩
    · rintro ⟨other, ho, hid, rfl⟩
      rcases (h.awaited_began ht).mp ho with rfl | ho
      · rfl
      · exact absurd hid (hother other ho)
  · -- for another equation nothing has changed
    rw [JobBoard.beginJob, Keyed.get?_insert_of_ne c.inFlight _ hid, h.inFlight_iff]
    constructor
    · rintro ⟨other, ho, rfl, rfl⟩
      exact ⟨other, (h.awaited_began ht).mpr (.inr ho), rfl, rfl⟩
    · rintro ⟨other, ho, rfl, rfl⟩
      rcases (h.awaited_began ht).mp ho with rfl | ho
      · exact absurd rfl hid
      · exact ⟨other, ho, rfl, rfl⟩

/-- What is said of every running pass holds once it holds of the new one too. -/
theorem forall_running_beginJob {P : Job → Prop} :
    (∀ other ∈ (c.beginJob job).running, P other) ↔ (∀ other ∈ c.running, P other) ∧ P job := by
  simp [JobBoard.beginJob, or_imp, forall_and]

/-- **Beginning a pass keeps the board and its history together**, where the pass that its equation
had was called off first. -/
theorem Kept.beginJob (h : Kept (.calledOff job.id :: log) c) (ht : job.ticket = c.nextTicket)
    (hc : job.cancelled = false) : Kept (.began job :: log) (c.beginJob job) := by
  have hbegun : job.asBegun = job := Job.asBegun_of_not_cancelled hc
  have hfresh : job.ticket ∉ (begun log).map Job.ticket := h.not_begun (Nat.le_of_eq ht.symm)
  have hended : ∀ t, .ended t ∈ (.began job :: log : List Event) ↔
      .ended t ∈ (.calledOff job.id :: log : List Event) := by simp
  exact
    { begun_lt := by
        intro other ho
        show other.ticket < c.nextTicket + 1
        rcases List.mem_cons.mp ho with rfl | ho
        · -- the ticket of the new pass is the next one, which is now given out
          rw [ht]
          exact Nat.lt_succ_self _
        · exact Nat.lt_succ_of_lt (h.begun_lt other ho)
      begun_nodup := List.nodup_cons.mpr ⟨hfresh, h.begun_nodup⟩
      ended_lt := by
        intro t hend
        exact Nat.lt_succ_of_lt (h.ended_lt t ((hended t).mp hend))
      inFlight_iff := h.inFlight_beginJob ht
      running_nodup := by
        -- the ticket of the new pass is above those of all that run
        show ((c.running ++ [job]).map Job.ticket).Nodup
        rw [List.map_append, List.nodup_append]
        refine ⟨h.running_nodup, List.nodup_singleton _, fun t hmem u hu htu => ?_⟩
        obtain ⟨other, ho, rfl⟩ := List.mem_map.mp hmem
        rw [List.mem_singleton.mp hu] at htu
        exact Nat.ne_of_lt (h.running_lt ho) (htu.trans ht)
      running_begun := by
        refine forall_running_beginJob.mpr ⟨fun other ho => ?_, ?_⟩
        · exact List.mem_cons_of_mem _ (h.running_begun other ho)
        · rw [hbegun]
          exact List.mem_cons_self
      running_live := by
        -- the new pass is live, and beginning it makes no other pass live again
        refine forall_running_beginJob.mpr ⟨fun other ho => ?_, ?_⟩
        · rw [live_began, h.running_live other ho]
          refine ⟨.inr, fun hl => hl.resolve_left fun heq => ?_⟩
          have hlt : other.asBegun.ticket < c.nextTicket := h.begun_lt _ (h.running_begun other ho)
          rw [heq, ht] at hlt
          exact Nat.lt_irrefl _ hlt
        · -- the new pass itself: it was not called off, and it is live
          rw [live_began, hbegun]
          exact ⟨fun _ => .inl rfl, fun _ => hc⟩
      running_not_ended := by
        refine forall_running_beginJob.mpr ⟨fun other ho => ?_, ?_⟩
        · rw [hended]
          exact h.running_not_ended other ho
        · -- the new pass has not ended, since only tickets given out end
          rw [hended, ht]
          exact fun hend => Nat.lt_irrefl _ (h.ended_lt _ hend)
      arrived_from := by
        -- no result that lies on the board can be one of the new pass
        intro o ho
        obtain ⟨other, hb, hend, hid, hticket, hv, hres⟩ := h.arrived_from o ho
        refine ⟨other, List.mem_cons_of_mem _ hb, (hended _).mpr hend, hid, hticket, hv, ?_⟩
        intro hl
        rcases live_began.mp hl with rfl | hl
        · exact absurd (List.mem_map_of_mem hb) hfresh
        · exact hres hl
      awaited_somewhere := by
        intro other ho
        rcases (h.awaited_began ht).mp ho with rfl | ho
        · -- the new pass runs
          exact .inl (List.mem_append_right _ List.mem_cons_self)
        · exact (h.awaited_somewhere other ho).imp_left fun hrun => List.mem_append_left _ hrun
      handed_nodup := h.handed_nodup
      handed_ended := by
        intro p hp
        exact (hended _).mpr (h.handed_ended p hp) }

end Begin

/-- Spawning a pass keeps the invariant. -/
theorem Kept.spawn {log : List Event} {b : JobBoard} (h : Kept log b) (id : Nat)
    (equation : Equation) (viewport : Viewport Float) (settings : Settings Float) :
    Kept (.began ⟨id, b.nextTicket, equation, viewport, settings, false⟩ :: log)
      (b.spawn id equation viewport settings) := by
  rw [spawn_eq]
  exact Kept.beginJob (h.cancel id) (nextTicket_cancel b id).symm rfl

/-! ### The end of a pass -/

/-- **The end of a pass keeps the board and its history together**, whatever the pass leaves. -/
theorem Kept.finish {log : List Event} {b : JobBoard} (h : Kept log b) {job : Job}
    (hj : job ∈ b.running) (left : Option (List (Segment Float))) :
    Kept (.ended job.ticket :: log) (b.finish job left) := by
  have hbegun : job.asBegun ∈ begun log := h.running_begun job hj
  have hstill : ∀ other, other ∈ (b.finish job left).running ↔
      other ∈ b.running ∧ other.ticket ≠ job.ticket := by
    intro other
    simp [JobBoard.finish]
  exact
    { begun_lt := h.begun_lt
      begun_nodup := h.begun_nodup
      ended_lt := by
        intro t ht
        rcases List.mem_cons.mp ht with heq | ht
        · rw [Event.ended.inj heq]
          exact h.begun_lt job.asBegun hbegun
        · exact h.ended_lt t ht
      inFlight_iff := by
        intro id x
        simp only [awaited_ended]
        exact h.inFlight_iff id x
      running_nodup := h.running_nodup.sublist (List.filter_sublist.map _)
      running_begun := by
        intro other ho
        exact h.running_begun other ((hstill other).mp ho).1
      running_live := by
        intro other ho
        rw [live_ended]
        exact h.running_live other ((hstill other).mp ho).1
      running_not_ended := by
        intro other ho hmem
        obtain ⟨hrun, hne⟩ := (hstill other).mp ho
        rcases List.mem_cons.mp hmem with heq | hmem
        · -- the pass that ended is the one that left
          exact hne (Event.ended.inj heq)
        · exact h.running_not_ended other hrun hmem
      arrived_from := by
        intro o ho
        rcases List.mem_append.mp ho with ho | ho
        · -- an old result
          obtain ⟨other, hb, hend, hid, ht, hv, hres⟩ := h.arrived_from o ho
          exact ⟨other, hb, List.mem_cons_of_mem _ hend, hid, ht, hv,
            fun hl => hres (live_ended.mp hl)⟩
        · -- the new result: if the pass is live, nobody called it off, so it left the true one
          obtain rfl := List.mem_singleton.mp ho
          refine ⟨job.asBegun, hbegun, List.mem_cons_self, rfl, rfl, rfl, fun hl => ?_⟩
          have hc : job.cancelled = false := (h.running_live job hj).mpr (live_ended.mp hl)
          rw [Job.asBegun_of_not_cancelled hc]
          simp [Job.leaving, hc]
      awaited_somewhere := by
        -- what ran and runs no more has its result on the board
        intro other ho
        by_cases ht : other.ticket = job.ticket
        · exact .inr ⟨job.leaving left, List.mem_append_right _ List.mem_cons_self, ht.symm⟩
        · rcases h.awaited_somewhere other (awaited_ended.mp ho) with hrun | ⟨o, ho, hto⟩
          · exact .inl ((hstill other).mpr ⟨hrun, ht⟩)
          · exact .inr ⟨o, List.mem_append_left _ ho, hto⟩
      handed_nodup := h.handed_nodup
      handed_ended := by
        intro p hp
        exact List.mem_cons_of_mem _ (h.handed_ended p hp) }

/-! ### Taking a result -/

/-- **A result is handed out exactly if its pass is awaited,** and then as the result
of that pass. -/
theorem Kept.accept_cases {log : List Event} {b : JobBoard} (h : Kept log b) {o : Outcome}
    (ho : o ∈ b.arrived) :
    (∃ job segments, Awaited log job ∧ job.ticket = o.ticket ∧ job.result = some segments ∧
      accept b.inFlight o =
        (b.inFlight.erase job.id, some ⟨job.id, job.viewport, segments⟩)) ∨
    ((∀ job, Awaited log job → job.ticket ≠ o.ticket) ∧
      accept b.inFlight o = (b.inFlight, none)) := by
  obtain ⟨job, hb, -, hid, ht, hv, hres⟩ := h.arrived_from o ho
  by_cases hj : Awaited log job
  · -- the pass is in flight, so its result is handed out, and it is the true one
    obtain ⟨segments, hs⟩ := job.exists_result
    refine .inl ⟨job, segments, hj, ht.symm, hs, ?_⟩
    unfold accept
    rw [hid, h.inFlight_of_awaited hj]
    simp [ht, hv, hres hj.1, hs]
  · -- the ticket in flight, if there is one, is that of another pass
    have hnone : ∀ other, Awaited log other → other.ticket ≠ o.ticket := by
      intro other ho heq
      rw [h.begun_inj ho.1.mem_begun hb (heq.trans ht)] at ho
      exact hj ho
    refine .inr ⟨hnone, ?_⟩
    -- the ticket in flight is compared with that of the result
    unfold accept
    split
    · rfl
    · next x hx =>
      obtain ⟨other, ho, -, rfl⟩ := (h.inFlight_iff _ _).mp hx
      exact if_neg (hnone other ho)

/-- The result of an awaited pass is handed out. -/
theorem Kept.deliver {log : List Event} {b : JobBoard} (h : Kept log b) {o : Outcome}
    {rest : List Outcome} (hb : b.arrived = o :: rest) {job : Job} (hj : Awaited log job)
    (ht : job.ticket = o.ticket) (f : Finished) :
    Kept (.handedOut o.ticket f :: log)
      { b with inFlight := b.inFlight.erase job.id, arrived := rest } := by
  have hrest : ∀ p ∈ rest, p ∈ b.arrived := fun p hp => hb ▸ List.mem_cons_of_mem _ hp
  have hsame : ∀ other, Awaited log other → (other.id = job.id ↔ other.ticket = o.ticket) := by
    intro other ho
    rw [h.id_eq_iff ho hj, ht]
  exact
    { begun_lt := h.begun_lt
      begun_nodup := h.begun_nodup
      ended_lt := by
        intro t hend
        exact h.ended_lt t (by simpa using hend)
      inFlight_iff := by
        -- the pass that was in flight for the equation is the one that is handed out
        intro id x
        simp only [awaited_handedOut]
        by_cases hid : id = job.id
        · subst hid
          rw [Keyed.get?_erase_self]
          constructor
          · -- nothing is in flight for the equation any more
            intro hx
            cases hx
          · rintro ⟨other, ⟨ho, hne⟩, hid, -⟩
            exact absurd ((hsame other ho).mp hid) hne
        · rw [Keyed.get?_erase_of_ne b.inFlight hid, h.inFlight_iff]
          constructor
          · rintro ⟨other, ho, rfl, rfl⟩
            exact ⟨other, ⟨ho, fun heq => hid ((hsame other ho).mpr heq)⟩, rfl, rfl⟩
          · rintro ⟨other, ⟨ho, -⟩, hi, hx⟩
            exact ⟨other, ho, hi, hx⟩
      running_nodup := h.running_nodup
      running_begun := h.running_begun
      running_live := by
        intro other ho
        rw [live_handedOut]
        exact h.running_live other ho
      running_not_ended := by
        intro other ho hend
        exact h.running_not_ended other ho (by simpa using hend)
      arrived_from := by
        intro p hp
        obtain ⟨other, hbegun, hend, hid, htp, hv, hres⟩ := h.arrived_from p (hrest p hp)
        exact ⟨other, hbegun, List.mem_cons_of_mem _ hend, hid, htp, hv,
          fun hl => hres (live_handedOut.mp hl)⟩
      awaited_somewhere := by
        -- the result that is gone was that of the pass which is not awaited any more
        intro other ho
        obtain ⟨ho, hne⟩ := awaited_handedOut.mp ho
        refine (h.awaited_somewhere other ho).imp_right ?_
        rintro ⟨p, hp, htp⟩
        rw [hb] at hp
        rcases List.mem_cons.mp hp with rfl | hp
        · -- it would be the result that was just handed out
          exact absurd htp.symm hne
        · exact ⟨p, hp, htp⟩
      handed_nodup := List.nodup_cons.mpr ⟨ht ▸ hj.2, h.handed_nodup⟩
      handed_ended := by
        intro p hp
        refine List.mem_cons_of_mem _ ?_
        rcases List.mem_cons.mp hp with rfl | hp
        · -- the result came from a pass that had ended
          obtain ⟨other, -, hend, -, hto, -⟩ := h.arrived_from o (hb ▸ List.mem_cons_self)
          show .ended o.ticket ∈ log
          rw [hto]
          exact hend
        · exact h.handed_ended p hp }

/-- A result that nobody awaits is dropped. -/
theorem Kept.drop {log : List Event} {b : JobBoard} (h : Kept log b) {o : Outcome}
    {rest : List Outcome} (hb : b.arrived = o :: rest)
    (hnone : ∀ job, Awaited log job → job.ticket ≠ o.ticket) :
    Kept log { b with arrived := rest } where
  begun_lt := h.begun_lt
  begun_nodup := h.begun_nodup
  ended_lt := h.ended_lt
  inFlight_iff := h.inFlight_iff
  running_nodup := h.running_nodup
  running_begun := h.running_begun
  running_live := h.running_live
  running_not_ended := h.running_not_ended
  arrived_from p hp := h.arrived_from p (hb ▸ List.mem_cons_of_mem _ hp)
  awaited_somewhere job hj := by
    refine (h.awaited_somewhere job hj).imp_right ?_
    rintro ⟨p, hp, htp⟩
    rw [hb] at hp
    rcases List.mem_cons.mp hp with rfl | hp
    · exact absurd htp.symm (hnone job hj)
    · exact ⟨p, hp, htp⟩
  handed_nodup := h.handed_nodup
  handed_ended := h.handed_ended

/-- Taking a result keeps the invariant, whether the result is handed out or dropped. -/
theorem Kept.receive {log : List Event} {b : JobBoard} (h : Kept log b) {o : Outcome}
    (ho : b.arrived.head? = some o) :
    Kept (Event.delivery o.ticket b.receive.2 ++ log) b.receive.1 := by
  obtain ⟨rest, hb⟩ := List.head?_eq_some_iff.mp ho
  have hmem : o ∈ b.arrived := hb ▸ List.mem_cons_self
  unfold JobBoard.receive
  rw [hb]
  rcases h.accept_cases hmem with ⟨job, segments, hj, ht, -, heq⟩ | ⟨hnone, heq⟩
  · simp only [heq]
    exact h.deliver hb hj ht _
  · simp only [heq]
    exact h.drop hb hnone

/-- **The board agrees with its history, in whatever order things happen.** -/
theorem Run.kept {log : List Event} {b : JobBoard} (h : Run log b) : Kept log b := by
  induction h with
  | start => exact .empty
  | spawn id equation viewport settings _ ih => exact ih.spawn id equation viewport settings
  | cancel id _ ih => exact ih.cancel id
  | cancelAll _ ih => exact ih.cancelAll
  | finish job left hj _ ih => exact ih.finish hj left
  | receive o ho _ ih => exact ih.receive ho

end CurvePlot.JobBoard
