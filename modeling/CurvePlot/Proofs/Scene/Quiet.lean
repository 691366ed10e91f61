import CurvePlot.Proofs.Scene.Resting
/-!
# Polls that have nothing to do

An event loop sleeps until `nextDeadline?` and polls then. It must not find the scene asking
for the moment that has just passed, or it would never sleep again, and it must not miss
anything by sleeping. Both are said with one notion: a scene `Rests` at a moment if all its
deadlines are later.

* A scene that was polled rests (`rests_poll`). Each part of a poll takes its own deadlines
  away, and no later part makes anything wait, whatever it sets, refreshes or calls off. Nor
  do passes that end meanwhile (`Polls.rests`).
* To poll a scene that rests is to empty the board (`poll_of_rests`), provided that nobody
  awaits what lies there. A pass that was called off may leave its result at any time, so
  such results have to be expected, and they must not count as a change.

A scene rests exactly if its next deadline is later (`rests_iff`).
-/

namespace CurvePlot

/-- All numbers of a list are later exactly if its least one is. -/
theorem later_min?_iff {moments : List Nat} {now : Nat} :
    (∀ d, moments.min? = some d → now < d) ↔ ∀ d ∈ moments, now < d := by
  constructor
  · intro h d hd
    cases hmin : moments.min? with
    | none =>
      rw [List.min?_eq_none_iff.mp hmin] at hd
      cases hd
    | some least =>
      have hleast : least ≤ d := (List.min?_eq_some_iff.mp hmin).2 d hd
      exact Nat.lt_of_lt_of_le (h least hmin) hleast
  · intro h d hd
    exact h d (List.min?_eq_some_iff.mp hd).1

/-! ### Debouncers -/

namespace Debouncer

variable {d : Debouncer} {now : Nat}

/-- Everything that waits is due later. -/
def Rests (d : Debouncer) (now : Nat) : Prop :=
  ∀ key moment, d.deadlines.get? key = some moment → now < moment

theorem rests_iff : d.Rests now ↔ ∀ moment, d.nextDeadline? = some moment → now < moment := by
  rw [nextDeadline?, later_min?_iff]
  constructor
  · intro h moment hmoment
    obtain ⟨key, hkey⟩ := Keyed.mem_values.mp hmoment
    exact h key moment hkey
  · intro h key moment hkey
    exact h moment (Keyed.mem_values.mpr ⟨key, hkey⟩)

/-- Nothing is due, and there is nothing to deliver. -/
theorem Rests.due_deliver (h : d.Rests now) : d.due now = [] ∧ d.deliver now = d := by
  have hlater : ∀ e ∈ d.deadlines.entries, ¬ e.2 ≤ now := by
    intro e he
    exact Nat.not_le.mpr (h e.1 e.2 (Keyed.get?_eq_some_iff.mpr he))
  constructor
  · rw [due, List.filter_eq_nil_iff.mpr fun e he => by simpa using hlater e he]
    rfl
  · have hkept : d.deadlines.entries.filter (fun e => !(e.2 ≤ now)) = d.deadlines.entries :=
      List.filter_eq_self.mpr fun e he => by simpa using hlater e he
    exact congrArg (Debouncer.mk d.delay) (Keyed.ext hkept)

/-- Whatever was due is gone once it is delivered. -/
theorem rests_deliver (d : Debouncer) (now : Nat) : (d.deliver now).Rests now :=
  fun _ _ hwaits => (get?_deliver_eq_some_iff.mp hwaits).2

end Debouncer

/-! ### Results that nobody awaits -/

namespace JobBoard

variable {b : JobBoard} {o : Outcome}

/-- The result is that of a pass that is awaited. -/
def Expects (b : JobBoard) (o : Outcome) : Prop :=
  ∃ x, b.inFlight.get? o.id = some x ∧ x.ticket = o.ticket

theorem accept_of_not_expects (h : ¬ b.Expects o) : accept b.inFlight o = (b.inFlight, none) := by
  unfold accept
  split
  · rfl
  · next x hx => exact if_neg fun hticket => h ⟨x, hx, hticket⟩

/-- The board without the results that lie there. -/
def emptied (b : JobBoard) : JobBoard := { b with arrived := [] }

theorem emptied_of_nil (h : b.arrived = []) : b.emptied = b := by
  cases b
  cases h
  rfl

/-- **Results that nobody awaits are thrown away** and change nothing. -/
theorem drain_of_not_expects (h : ∀ o ∈ b.arrived, ¬ b.Expects o) : b.drain = (b.emptied, []) := by
  have hnone : ∀ arrived : List Outcome, (∀ o ∈ arrived, ¬ b.Expects o) →
      acceptAll b.inFlight arrived = (b.inFlight, []) := by
    intro arrived harrived
    induction arrived with
    | nil => rfl
    | cons o rest ih =>
      have hrest := ih fun o' ho' => harrived o' (List.mem_cons_of_mem o ho')
      simp only [acceptAll, accept_of_not_expects (harrived o List.mem_cons_self), hrest]
      rfl
  unfold drain
  rw [hnone b.arrived h]
  rfl

end JobBoard

/-! ### Scenes -/

namespace Scene

variable {s s' : Scene} {now : Nat}

/-- **Everything that the scene waits for comes later.** -/
structure Rests (s : Scene) (now : Nat) : Prop where
  edits : s.edits.Rests now
  refreshes : s.refreshes.Rests now
  scroll : ∀ moment, s.scrollSettlesAt = some moment → now < moment

/-- **A scene rests exactly if its next deadline is later.** -/
theorem rests_iff : s.Rests now ↔ ∀ d, s.nextDeadline? = some d → now < d := by
  rw [nextDeadline?, later_min?_iff]
  simp only [List.mem_append, Option.mem_toList]
  constructor
  · rintro ⟨hedits, hrefreshes, hscroll⟩ d ((hd | hd) | hd)
    · exact Debouncer.rests_iff.mp hedits d hd
    · exact Debouncer.rests_iff.mp hrefreshes d hd
    · exact hscroll d hd
  · intro h
    exact ⟨Debouncer.rests_iff.mpr fun d hd => h d (.inl (.inl hd)),
      Debouncer.rests_iff.mpr fun d hd => h d (.inl (.inr hd)), fun d hd => h d (.inr hd)⟩

namespace SameSketch

theorem collect (s : Scene) : SameSketch s s.collect.1 :=
  List.foldlRecOn s.jobs.drain.2 Scene.installOne (motive := fun state => SameSketch s state.1)
    (.of_rows (fun _ => rfl) s.jobs.drain.1) fun state hstate f _ => hstate.trans (installOne state f)

/-- Passes that end are not seen in the sketch. -/
theorem finishes (s : Scene) (ends : List (Nat × Option (List (Segment Float)))) :
    SameSketch s (s.run (ends.map fun e => .finish e.1 e.2)) := by
  induction ends generalizing s with
  | nil => exact refl s
  | cons e ends ih => exact (finish s e.1 e.2).trans (ih _)

end SameSketch

/-- What a scene waits for does not depend on what is traced. -/
theorem Rests.same (h : s.Rests now) (hs : SameSketch s s') : s'.Rests now := by
  obtain ⟨rows, jobs, rfl, -⟩ := hs
  exact ⟨h.edits, h.refreshes, h.scroll⟩

/-! ### Nothing is left over -/

/-- Where no wait begins, a debouncer that rests goes on resting. -/
theorem NoNewWait.rests_edits (h : NoNewWait s s') (hs : s.edits.Rests now) : s'.edits.Rests now :=
  fun key moment hwaits => hs key moment (h.edit key moment hwaits)

theorem NoNewWait.rests_refreshes (h : NoNewWait s s') (hs : s.refreshes.Rests now) :
    s'.refreshes.Rests now :=
  fun key moment hwaits => hs key moment (h.refresh key moment hwaits)

theorem rests_edits_applyEdits (s : Scene) (now : Nat) : (s.applyEdits now).1.edits.Rests now := by
  intro key moment hwaits
  rw [deadline_applyEdits, ← Debouncer.get?_deliver] at hwaits
  exact Debouncer.rests_deliver s.edits now key moment hwaits

theorem rests_refreshes_applyRefreshes (s : Scene) (now : Nat) :
    (s.applyRefreshes now).1.refreshes.Rests now := by
  have hdelivered : Debouncer.Rests { s with refreshes := s.refreshes.deliver now }.refreshes now :=
    Debouncer.rests_deliver s.refreshes now
  unfold applyRefreshes
  dsimp only
  split
  · exact hdelivered
  · exact (NoNewWait.foldl_refreshEquation _ _).refreshDerived.rests_refreshes hdelivered

theorem scroll_applyScroll (s : Scene) (now : Nat) :
    ∀ moment, (s.applyScroll now).1.scrollSettlesAt = some moment → now < moment := by
  intro moment hwaits
  unfold applyScroll at hwaits
  split at hwaits
  · -- the moment was taken away, and to refresh sets no other
    rw [(SameSurroundings.refreshAll { s with scrollSettlesAt := none }).scrollSettlesAt] at hwaits
    cases hwaits
  · next hnot =>
    rw [hwaits, Option.any_some] at hnot
    exact Nat.lt_of_not_le fun hle => hnot (decide_eq_true hle)

/-- **What a poll comes to while tracing goes on:** its three parts one after the other, and at any
time, also in between, passes that end and results that are taken. -/
def Polls (now : Nat) (actions : List Action) : Prop :=
  actions.filter (fun a => !a.isTracing) = [.applyEdits now, .applyRefreshes now, .applyScroll now]

/-- An undisturbed poll is one of these. -/
theorem exists_polls (s : Scene) (now : Nat) :
    ∃ actions, Polls now actions ∧ s.run actions = (s.poll now).1 := by
  obtain ⟨taken, hpoll⟩ := run_poll s now
  refine ⟨_, ?_, hpoll⟩
  have htaken : (List.replicate taken Action.receive).filter (fun a => !a.isTracing) = [] :=
    List.filter_eq_nil_iff.mpr fun a ha => by
      rw [List.eq_of_mem_replicate ha]
      exact Bool.false_ne_true
  rw [Polls, List.filter_append, htaken, List.append_nil]
  rfl

/-- **A scene rests behind the three parts of a poll,** however tracing goes on meanwhile. -/
theorem Polls.rests {actions : List Action} (h : Polls now actions) (s : Scene) :
    (s.run actions).Rests now := by
  let edited := (s.applyEdits now).1
  let refreshed := (edited.applyRefreshes now).1
  let settled := (refreshed.applyScroll now).1
  have hedited : edited.edits.Rests now := rests_edits_applyEdits s now
  have hrefreshed : refreshed.refreshes.Rests now := rests_refreshes_applyRefreshes edited now
  -- no later part makes anything wait that an earlier one has taken away
  have hfirst : NoNewWait edited refreshed := .applyRefreshes edited now
  have hsecond : NoNewWait refreshed settled := .applyScroll refreshed now
  have hsettled : settled.Rests now :=
    { edits := (hfirst.trans hsecond).rests_edits hedited
      refreshes := hsecond.rests_refreshes hrefreshed
      scroll := scroll_applyScroll refreshed now }
  -- tracing is not seen in the sketch, so it may be left out
  have hsame : SameSketch (s.run actions) settled := by
    have hrun := SameSketch.run (.refl s) actions
    rw [h] at hrun
    exact hrun
  exact hsettled.same hsame.symm

/-- **A scene that was polled rests.** -/
theorem rests_poll (s : Scene) (now : Nat) : (s.poll now).1.Rests now := by
  obtain ⟨actions, hpolls, hpoll⟩ := exists_polls s now
  rw [← hpoll]
  exact hpolls.rests s

/-- After a poll, nothing lies on the board. -/
theorem arrived_collect (s : Scene) : s.collect.1.jobs.arrived = [] := by
  unfold collect
  dsimp only
  rw [install_jobs s]
  exact JobBoard.arrived_drain s.jobs

/-! ### Nothing is done in vain -/

/-- The scene whose board was emptied. -/
def emptied (s : Scene) : Scene := { s with jobs := s.jobs.emptied }

theorem emptied_of_nil (h : s.jobs.arrived = []) : s.emptied = s := by
  rw [emptied, JobBoard.emptied_of_nil h]

/-- **To poll a scene that rests changes nothing,** if nobody awaits what lies on its board. -/
theorem poll_of_rests (h : s.Rests now) (hstale : ∀ o ∈ s.jobs.arrived, ¬ s.jobs.Expects o) :
    s.poll now = (s.emptied, false) := by
  have hedits : s.applyEdits now = (s, false) := by
    obtain ⟨hdue, hdeliver⟩ := h.edits.due_deliver
    rw [applyEdits, hdue, hdeliver]
    rfl
  have hrefreshes : s.applyRefreshes now = (s, false) := by
    obtain ⟨hdue, hdeliver⟩ := h.refreshes.due_deliver
    rw [applyRefreshes, hdue, hdeliver]
    rfl
  have hscroll : s.applyScroll now = (s, false) := by
    refine if_neg fun hany => ?_
    obtain ⟨moment, hmoment, hle⟩ := (Option.any_eq_true _ _).mp hany
    exact absurd (of_decide_eq_true hle) (Nat.not_le.mpr (h.scroll moment hmoment))
  have hcollect : s.collect = (s.emptied, false) := by
    unfold collect
    rw [JobBoard.drain_of_not_expects hstale]
    rfl
  unfold poll
  rw [hedits]
  dsimp only
  rw [hrefreshes]
  dsimp only
  rw [hscroll]
  dsimp only
  rw [hcollect]
  rfl

/-- **A loop that sleeps until the next deadline neither spins nor misses anything.** When a
scene was polled, its next deadline is later, and to poll it again at that moment does
nothing, also if passes that nobody awaits have ended meanwhile. So it is where passes end
during the poll, between its parts or while results are taken. And before its next deadline,
to poll a scene does nothing as long as no result has arrived that is awaited. To do nothing
is to answer `false` and at most to throw results away that nobody awaits. -/
theorem poll_exhaustive (s : Scene) (now : Nat) :
    let polled := (s.poll now).1
    (∀ d, polled.nextDeadline? = some d → now < d) ∧ polled.poll now = (polled, false) ∧
    (∀ ends : List (Nat × Option (List (Segment Float))),
      let later := polled.run (ends.map fun e => .finish e.1 e.2)
      (∀ o ∈ later.jobs.arrived, ¬ later.jobs.Expects o) →
        later.poll now = (later.emptied, false)) ∧
    (∀ actions : List Action, Polls now actions →
      let later := s.run actions
      (∀ d, later.nextDeadline? = some d → now < d) ∧
        ((∀ o ∈ later.jobs.arrived, ¬ later.jobs.Expects o) →
          later.poll now = (later.emptied, false))) ∧
    ((∀ d, s.nextDeadline? = some d → now < d) →
      (∀ o ∈ s.jobs.arrived, ¬ s.jobs.Expects o) → s.poll now = (s.emptied, false)) := by
  intro polled
  have hrests : polled.Rests now := rests_poll s now
  have hempty : polled.jobs.arrived = [] := arrived_collect _
  refine ⟨rests_iff.mp hrests, ?_, ?_, ?_, fun hlater hstale => ?_⟩
  · -- the poll has emptied the board, so there is nothing to be thrown away
    have hstale : ∀ o ∈ polled.jobs.arrived, ¬ polled.jobs.Expects o := by
      rw [hempty]
      exact nofun
    have hpoll := poll_of_rests hrests hstale
    rw [emptied_of_nil hempty] at hpoll
    exact hpoll
  · intro ends later hstale
    exact poll_of_rests (hrests.same (.finishes polled ends)) hstale
  · intro actions hpolls later
    have hlater : later.Rests now := hpolls.rests s
    exact ⟨rests_iff.mp hlater, fun hstale => poll_of_rests hlater hstale⟩
  · exact poll_of_rests (rests_iff.mpr hlater) hstale

end Scene

end CurvePlot
