import CurvePlot.Proofs.JobBoard.Delivery
/-!
# What holds of every live pass

The owner of a board relies on its live passes: that the equation of each is still
there, or that none was begun before some moment. `LiveAll P b` says that `b` is a
board with some history after which every live pass satisfies `P`. The lemmas say
what each operation does to such a `P`, so that whoever uses the board need not look
at histories.

Only live passes are handed out, so what is handed out is the result of a pass that
satisfies `P` (`LiveAll.receive`).
-/

namespace CurvePlot.JobBoard

/-- **The board has a history** after which every live pass satisfies the predicate. -/
def LiveAll (P : Job → Prop) (b : JobBoard) : Prop :=
  ∃ log, Run log b ∧ ∀ job, Live log job → P job

namespace LiveAll

variable {P Q : Job → Prop} {b : JobBoard}

/-- On the empty board no pass is live. -/
theorem empty : LiveAll P .empty := by
  refine ⟨[], .start, ?_⟩
  rintro job ⟨later, earlier, heq, -⟩
  simp at heq

/-- What holds of every live pass may be replaced by what follows from it. -/
theorem mono (h : b.LiveAll P) (hPQ : ∀ job, P job → Q job) : b.LiveAll Q := by
  obtain ⟨log, hrun, hlive⟩ := h
  exact ⟨log, hrun, fun job hj => hPQ job (hlive job hj)⟩

/-- After calling off the pass of an equation, none of its passes is live. -/
theorem cancel (h : b.LiveAll P) (id : Nat) :
    (b.cancel id).LiveAll fun job => P job ∧ job.id ≠ id := by
  obtain ⟨log, hrun, hlive⟩ := h
  refine ⟨_, .cancel id hrun, fun job hj => ?_⟩
  rcases live_cons.mp hj with heq | ⟨hends, hj⟩
  · cases heq
  · exact ⟨hlive job hj, fun hid => hends hid.symm⟩

/-- After calling off all passes, none is live. -/
theorem cancelAll (h : b.LiveAll P) : b.cancelAll.LiveAll fun _ => False := by
  obtain ⟨log, hrun, -⟩ := h
  refine ⟨_, .cancelAll hrun, fun job hj => ?_⟩
  rcases live_cons.mp hj with heq | ⟨hends, -⟩
  · cases heq
  · exact hends trivial

/-- A pass that is begun takes the place of the one that its equation had. -/
theorem spawn (h : b.LiveAll P) (id : Nat) (equation : Equation) (viewport : Viewport Float)
    (settings : Settings Float) :
    (b.spawn id equation viewport settings).LiveAll fun job =>
      job = ⟨id, b.nextTicket, equation, viewport, settings, false⟩ ∨ (P job ∧ job.id ≠ id) := by
  obtain ⟨log, hrun, hlive⟩ := h
  refine ⟨_, .spawn id equation viewport settings hrun, fun job hj => ?_⟩
  rcases live_cons.mp hj with heq | ⟨hends, hj⟩
  · -- the pass that is begun
    exact .inl (Event.began.inj heq).symm
  · -- a pass that was live before, of another equation
    exact .inr ⟨hlive job hj, fun hid => hends hid.symm⟩

/-- The end of a pass does not tell whether it is live. -/
theorem finish (h : b.LiveAll P) {job : Job} (hj : job ∈ b.running)
    (left : Option (List (Segment Float))) : (b.finish job left).LiveAll P := by
  obtain ⟨log, hrun, hlive⟩ := h
  exact ⟨_, .finish job left hj hrun, fun other ho => hlive other (live_ended.mp ho)⟩

/-- **What is handed out is the result of a live pass.** -/
theorem receive (h : b.LiveAll P) : b.receive.1.LiveAll P ∧
    ∀ f, b.receive.2 = some f → ∃ job segments, P job ∧ job.result = some segments ∧
      f = ⟨job.id, job.viewport, segments⟩ := by
  obtain ⟨log, hrun, hlive⟩ := h
  cases hb : b.arrived with
  | nil =>
    have hnone : b.receive = (b, none) := by
      unfold JobBoard.receive
      rw [hb]
    rw [hnone]
    -- an empty board hands out nothing and stays as it is
    exact ⟨⟨log, hrun, hlive⟩, nofun⟩
  | cons o rest =>
    have hmem : o ∈ b.arrived := hb ▸ List.mem_cons_self
    have hnext : Run (Event.delivery o.ticket b.receive.2 ++ log) b.receive.1 :=
      .receive o (by rw [hb]; rfl) hrun
    refine ⟨⟨_, hnext, fun job hj => ?_⟩, fun f hf => ?_⟩
    · -- taking a result neither begins a pass nor calls one off
      cases hf : b.receive.2 with
      | none =>
        rw [hf] at hj
        exact hlive job hj
      | some f =>
        rw [hf] at hj
        exact hlive job (live_handedOut.mp hj)
    · rw [JobBoard.receive, hb] at hf
      -- what is accepted is awaited, and what is awaited is live
      rcases hrun.kept.accept_cases hmem with ⟨job, segments, hj, -, hres, heq⟩ | ⟨-, heq⟩
      · simp only [heq] at hf
        exact ⟨job, segments, hlive job hj.1, hres, (Option.some.inj hf).symm⟩
      · simp only [heq] at hf
        cases hf

/-- What is in flight is live. -/
theorem inFlight (h : b.LiveAll P) {id : Nat} {x : InFlight} (hx : b.inFlight.get? id = some x) :
    ∃ job, P job ∧ job.id = id ∧ x = ⟨job.ticket, job.viewport⟩ := by
  obtain ⟨log, hrun, hlive⟩ := h
  obtain ⟨job, hj, hid, heq⟩ := (hrun.kept.inFlight_iff id x).mp hx
  exact ⟨job, hlive job hj.1, hid, heq⟩

end LiveAll

/-- Calling off all passes gives out no ticket. -/
@[simp]
theorem nextTicket_cancelAll (b : JobBoard) : b.cancelAll.nextTicket = b.nextTicket := rfl

/-- Beginning a pass gives out one ticket. -/
@[simp]
theorem nextTicket_spawn (b : JobBoard) (id : Nat) (equation : Equation)
    (viewport : Viewport Float) (settings : Settings Float) :
    (b.spawn id equation viewport settings).nextTicket = b.nextTicket + 1 := by
  rw [spawn_eq]
  simp [beginJob]

/-- The end of a pass gives out no ticket. -/
@[simp]
theorem nextTicket_finish (b : JobBoard) (job : Job) (left : Option (List (Segment Float))) :
    (b.finish job left).nextTicket = b.nextTicket := rfl

/-- Taking a result gives out no ticket. -/
@[simp]
theorem nextTicket_receive (b : JobBoard) : b.receive.1.nextTicket = b.nextTicket := by
  unfold JobBoard.receive
  split <;> rfl

/-- What is taken from a board was in flight under the ticket of the result. -/
theorem inFlight_of_accept {inFlight : Keyed Nat InFlight} {o : Outcome} {f : Finished}
    (h : (accept inFlight o).2 = some f) :
    f.id = o.id ∧ ∃ x, inFlight.get? o.id = some x ∧ x.ticket = o.ticket := by
  unfold accept at h
  split at h
  · cases h
  · next x hx =>
    -- the result is accepted only if its ticket is the one in flight
    split at h
    · next ht =>
      obtain ⟨segments, -, rfl⟩ := Option.map_eq_some_iff.mp h
      exact ⟨rfl, x, hx, ht⟩
    · cases h

end CurvePlot.JobBoard
