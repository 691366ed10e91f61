import CurvePlot.Proofs.JobBoard.LiveAll
/-!
# What is in flight

What the operations of a board do to the pass that is awaited for one equation. Only
operations on this equation change it, and taking a result ends the wait exactly if the
result is handed out (`LiveAll.receive_cases`).

The passes that run are told that they are called off by their ticket. No two passes have
the same one, so calling off the pass of one equation is not heard by those of another
(`passesOf_cancel_of_ne`).
-/

namespace CurvePlot

/-- A running pass, without its number and its ticket. -/
structure Pass where
  /-- What it draws. -/
  equation : Equation
  /-- The view for which it draws. -/
  viewport : Viewport Float
  /-- How finely it draws. -/
  settings : Settings Float
  /-- Whether it was told to stop. -/
  cancelled : Bool

/-- The pass, as it looks to one who knows neither its number nor its ticket. -/
def Job.pass (job : Job) : Pass := ⟨job.equation, job.viewport, job.settings, job.cancelled⟩

namespace JobBoard

variable {b : JobBoard} {id : Nat}

/-- Calling off takes away the pass in flight for one equation. -/
theorem get?_inFlight_cancel (b : JobBoard) (id i : Nat) :
    (b.cancel id).inFlight.get? i = if i = id then none else b.inFlight.get? i := by
  unfold cancel
  split
  · next hnone =>
    split
    · next hi => rw [hi, hnone]
    · rfl
  · split
    · next hi => rw [hi, Keyed.get?_erase_self]
    · next hi => exact Keyed.get?_erase_of_ne b.inFlight hi

/-- Beginning puts the new pass in flight, under the next ticket. -/
theorem get?_inFlight_spawn (b : JobBoard) (id i : Nat) (equation : Equation)
    (viewport : Viewport Float) (settings : Settings Float) :
    (b.spawn id equation viewport settings).inFlight.get? i =
      if i = id then some ⟨b.nextTicket, viewport⟩ else b.inFlight.get? i := by
  rw [spawn_eq, beginJob]
  split
  · next hi => rw [hi, Keyed.get?_insert_self]
  · next hi => rw [Keyed.get?_insert_of_ne _ _ hi, get?_inFlight_cancel, if_neg hi]

/-- A pass runs for a view exactly if the one in flight is for this view. -/
theorem isRunningFor_iff {viewport : Viewport Float} : b.isRunningFor id viewport = true ↔
    ∃ x, b.inFlight.get? id = some x ∧ (x.viewport == viewport) = true :=
  Option.any_eq_true _ _

/-! ### The running passes of one equation -/

/-- The running passes of an equation, those included that were called off. -/
def passesOf (b : JobBoard) (id : Nat) : List Job := b.running.filter fun job => job.id = id

/-- **Calling off the pass of an equation is not heard by those of another.** -/
theorem passesOf_cancel_of_ne {log : List Event} (h : Run log b) {i : Nat} (hi : i ≠ id) :
    (b.cancel id).passesOf i = b.passesOf i := by
  unfold cancel
  split
  · rfl
  · next x hx =>
    -- the ticket that is called off belongs to a pass of the one equation
    obtain ⟨awaited, hawaited, hid, rfl⟩ := (h.kept.inFlight_iff id x).mp hx
    have hother : ∀ job ∈ b.passesOf i, job.hush [awaited.ticket] = job := by
      intro job hjob
      obtain ⟨hrunning, hjobId⟩ := List.mem_filter.mp hjob
      -- else the pass would have the ticket of the awaited one, and so be it
      refine if_neg fun hticket => hi ?_
      have hsame : job.asBegun = awaited :=
        h.kept.begun_inj (h.kept.running_begun job hrunning) hawaited.1.mem_begun
          (List.mem_singleton.mp hticket)
      calc i = job.asBegun.id := (of_decide_eq_true hjobId).symm
        _ = awaited.id := by rw [hsame]
        _ = id := hid
    calc (signal awaited.ticket b.running).filter (fun job => job.id = i)
        = (b.passesOf i).map (Job.hush [awaited.ticket]) := by
          rw [signal_eq, List.filter_map]
          simp only [Function.comp_def, Job.id_hush]
          rfl
      _ = (b.passesOf i).map fun job => job := List.map_congr_left hother
      _ = b.passesOf i := List.map_id' _

/-- Nor is the beginning of a pass of one equation seen by another. -/
theorem passesOf_spawn_of_ne {log : List Event} (h : Run log b) {i : Nat} (hi : i ≠ id)
    (equation : Equation) (viewport : Viewport Float) (settings : Settings Float) :
    (b.spawn id equation viewport settings).passesOf i = b.passesOf i := by
  rw [← passesOf_cancel_of_ne h hi, spawn_eq, beginJob, passesOf, List.filter_append,
    List.filter_cons_of_neg (by simpa using hi.symm), List.filter_nil, List.append_nil]
  rfl

/-- Calling off leaves on the board what has arrived, -/
@[simp]
theorem arrived_cancel (b : JobBoard) (id : Nat) : (b.cancel id).arrived = b.arrived := by
  unfold cancel
  split <;> rfl

/-- and so does beginning. -/
@[simp]
theorem arrived_spawn (b : JobBoard) (id : Nat) (equation : Equation)
    (viewport : Viewport Float) (settings : Settings Float) :
    (b.spawn id equation viewport settings).arrived = b.arrived := by
  rw [spawn_eq]
  exact arrived_cancel b id

/-- **Nothing was done to the passes of any other equation,** or to what has arrived. -/
structure Confined (id : Nat) (b b' : JobBoard) : Prop where
  /-- The other equations wait for what they waited for. -/
  inFlight : ∀ i, i ≠ id → b'.inFlight.get? i = b.inFlight.get? i
  /-- Their passes run as before, and have heard nothing. -/
  passes : ∀ i, i ≠ id → b'.passesOf i = b.passesOf i
  /-- What has arrived is still there. -/
  arrived : b'.arrived = b.arrived

namespace Confined

variable {b' b'' : JobBoard} {log : List Event}

/-- Nothing is done by doing nothing. -/
theorem refl (id : Nat) (b : JobBoard) : Confined id b b := ⟨fun _ _ => rfl, fun _ _ => rfl, rfl⟩

/-- Doing one thing after another to the passes of an equation is confined to it. -/
theorem trans (h : Confined id b b') (h' : Confined id b' b'') : Confined id b b'' where
  inFlight i hi := (h'.inFlight i hi).trans (h.inFlight i hi)
  passes i hi := (h'.passes i hi).trans (h.passes i hi)
  arrived := h'.arrived.trans h.arrived

/-- Calling off is confined to its equation. -/
theorem cancel (h : Run log b) (id : Nat) : Confined id b (b.cancel id) where
  inFlight i hi := by rw [get?_inFlight_cancel, if_neg hi]
  passes _ hi := passesOf_cancel_of_ne h hi
  arrived := arrived_cancel b id

/-- So is beginning. -/
theorem spawn (h : Run log b) (id : Nat) (equation : Equation) (viewport : Viewport Float)
    (settings : Settings Float) : Confined id b (b.spawn id equation viewport settings) where
  inFlight i hi := by rw [get?_inFlight_spawn, if_neg hi]
  passes _ hi := passesOf_spawn_of_ne h hi equation viewport settings
  arrived := arrived_spawn b id equation viewport settings

end Confined

/-! ### The awaited pass of one equation -/

/-- What is awaited for an equation: the view, and the pass if that still runs. -/
def awaited (b : JobBoard) (id : Nat) : Option (Viewport Float × Option Pass) :=
  (b.inFlight.get? id).map fun x =>
    (x.viewport, ((b.passesOf id).find? fun job => job.ticket = x.ticket).map Job.pass)

/-- The other equations await the same pass. -/
theorem Confined.awaited_of_ne {b' : JobBoard} (h : Confined id b b') {i : Nat} (hi : i ≠ id) :
    b'.awaited i = b.awaited i := by
  unfold awaited
  rw [h.inFlight i hi, h.passes i hi]

/-- **What is begun is awaited.** -/
theorem awaited_spawn {log : List Event} (h : Run log b) (id : Nat) (equation : Equation)
    (viewport : Viewport Float) (settings : Settings Float) :
    (b.spawn id equation viewport settings).awaited id =
      some (viewport, some ⟨equation, viewport, settings, false⟩) := by
  let job : Job := ⟨id, b.nextTicket, equation, viewport, settings, false⟩
  have hpasses : (b.spawn id equation viewport settings).passesOf id =
      (b.cancel id).passesOf id ++ [job] := by
    rw [spawn_eq, beginJob, passesOf, List.filter_append,
      List.filter_cons_of_pos (by simp), List.filter_nil]
    rfl
  -- those that ran before have earlier tickets
  have hold : ((b.cancel id).passesOf id).find? (fun job => job.ticket = b.nextTicket) = none := by
    refine List.find?_eq_none.mpr fun old hmem heq => ?_
    have hlt : old.ticket < (b.cancel id).nextTicket :=
      (Run.cancel id h).kept.running_lt (List.mem_filter.mp hmem).1
    rw [nextTicket_cancel, of_decide_eq_true heq] at hlt
    exact Nat.lt_irrefl _ hlt
  have hnew : [job].find? (fun job => job.ticket = b.nextTicket) = some job :=
    List.find?_cons_of_pos (decide_eq_true rfl)
  unfold awaited
  rw [get?_inFlight_spawn, if_pos rfl, hpasses, Option.map_some, List.find?_append, hold,
    Option.none_or, hnew]
  rfl

/-! ### Taking a result -/

/-- **A wait ends with the result of the pass that was awaited,** under its view, or it
goes on. -/
theorem LiveAll.receive_cases {P : Job → Prop} (h : b.LiveAll P) :
    (b.receive.2 = none ∧ b.receive.1.inFlight = b.inFlight) ∨
    ∃ f ticket, b.receive.2 = some f ∧ b.inFlight.get? f.id = some ⟨ticket, f.viewport⟩ ∧
      b.receive.1.inFlight = b.inFlight.erase f.id := by
  obtain ⟨log, hrun, -⟩ := h
  unfold JobBoard.receive
  cases hb : b.arrived with
  | nil => exact .inl ⟨rfl, rfl⟩
  | cons o rest =>
    have hmem : o ∈ b.arrived := hb ▸ List.mem_cons_self
    -- the oldest result is that of an awaited pass, or it is stale and dropped
    rcases hrun.kept.accept_cases hmem with ⟨job, segments, hj, -, -, heq⟩ | ⟨-, heq⟩
    · refine .inr ⟨⟨job.id, job.viewport, segments⟩, job.ticket, ?_, ?_, ?_⟩
      · simp only [heq]
      · exact hrun.kept.inFlight_of_awaited hj
      · simp only [heq]
    · exact .inl ⟨by simp only [heq], by simp only [heq]⟩

end JobBoard

end CurvePlot
