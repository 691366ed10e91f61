import CurvePlot.Proofs.Debouncer
/-!
# A debouncer and its past

What waits in a debouncer is settled by what was done with it. `course delay calls` is
the debouncer after a row of calls, with the events of that row; both the calls and the
events are listed with the latest first. A key waits (`Waits log key t`) if it was
scheduled at `t`, and since then it was neither scheduled again nor cancelled, cleared
or handed out. The times of a row of calls need not rise.

The crux is one invariant, `Tracks`: the deadline of a key is the time of the schedule
it waits from plus the delay, and keys that do not wait have none. Every call keeps it
(`Tracks.step`), so it holds after every row of calls (`tracks_course`). What is due,
what is handed out and what comes next are all read off it. Together they are the
promises of `Coalesces`.
-/

namespace CurvePlot.Debouncer

/-! ### Calls and events -/

/-- Something that is asked of a debouncer. -/
inductive Call where
  /-- The wait of a key is started, or started over. -/
  | schedule (key now : Nat)
  /-- The wait of a key is ended. -/
  | cancel (key : Nat)
  /-- Every wait is ended. -/
  | clear
  /-- The keys that are due are taken. -/
  | take (now : Nat)

/-- Something that happened to a debouncer. -/
inductive Event where
  /-- The wait of a key was started, or started over. -/
  | scheduled (key now : Nat)
  /-- The wait of a key was ended. -/
  | cancelled (key : Nat)
  /-- Every wait was ended. -/
  | cleared
  /-- These keys were handed out. -/
  | took (now : Nat) (keys : List Nat)
deriving DecidableEq

/-- The debouncer after a call. -/
def after (d : Debouncer) : Call → Debouncer
  | .schedule key now => d.schedule key now
  | .cancel key => d.cancel key
  | .clear => d.clear
  | .take now => d.deliver now

/-- What happens in a call. -/
def event (d : Debouncer) : Call → Event
  | .schedule key now => .scheduled key now
  | .cancel key => .cancelled key
  | .clear => .cleared
  | .take now => .took now (d.due now)

/-- The debouncer after a row of calls, and what happened in them. -/
def course (delay : Nat) : List Call → Debouncer × List Event
  | [] => (idle delay, [])
  | call :: earlier =>
    let (d, log) := course delay earlier
    (d.after call, d.event call :: log)

variable {delay : Nat} {log : List Event} {d : Debouncer} {key now : Nat}

/-! ### Waiting -/

/-- Whether the event ends the wait of a key: it is cancelled, cleared or handed out. -/
def Event.Ends (key : Nat) : Event → Prop
  | scheduled _ _ => False
  | cancelled k => k = key
  | cleared => True
  | took _ keys => key ∈ keys

/-- Whether the event starts the wait of a key. -/
def Event.Starts (key : Nat) : Event → Prop
  | scheduled k _ => k = key
  | cancelled _ | cleared | took _ _ => False

/-- The event happened, and nothing of this kind since. -/
def Since (kind : Event → Prop) (log : List Event) (e : Event) : Prop :=
  ∃ later earlier, log = later ++ e :: earlier ∧ ∀ x ∈ later, ¬ kind x

/-- The key was scheduled at this time, and nothing has ended its wait since. -/
def ScheduledSince (log : List Event) (key t : Nat) : Prop :=
  Since (Event.Ends key) log (.scheduled key t)

/-- The key was last scheduled at this time, and nothing has ended its wait since. -/
def Waits (log : List Event) (key t : Nat) : Prop :=
  Since (fun e => e.Ends key ∨ e.Starts key) log (.scheduled key t)

/-- Nothing has happened since the beginning. -/
theorem not_since_nil {kind : Event → Prop} {e : Event} : ¬ Since kind [] e := by
  rintro ⟨later, earlier, heq, -⟩
  simp at heq

/-- It is the last event, or the last event is not of the kind and it is one before. -/
theorem since_cons {kind : Event → Prop} {x e : Event} :
    Since kind (x :: log) e ↔ x = e ∨ ¬ kind x ∧ Since kind log e := by
  constructor
  · -- it is what happened last, or it lies back and the last event is not of the kind
    rintro ⟨later, earlier, heq, hlater⟩
    rcases List.cons_eq_append_iff.mp heq with ⟨-, heq⟩ | ⟨later, rfl, rfl⟩
    · exact .inl (List.cons.inj heq).1.symm
    · exact .inr ⟨hlater x List.mem_cons_self, later, earlier, rfl,
        fun y hy => hlater y (List.mem_cons_of_mem x hy)⟩
  · rintro (rfl | ⟨hx, later, earlier, rfl, hlater⟩)
    · exact ⟨[], log, rfl, by simp⟩
    · exact ⟨x :: later, earlier, rfl, List.forall_mem_cons.mpr ⟨hx, hlater⟩⟩

/-- A key waits from the last event, or this leaves the key alone and it waits from before. -/
theorem waits_cons {e : Event} {t : Nat} :
    Waits (e :: log) key t ↔
      e = .scheduled key t ∨ (¬ e.Ends key ∧ ¬ e.Starts key) ∧ Waits log key t := by
  rw [Waits, since_cons, not_or]
  rfl

/-- Of the schedules since the last end of a wait, one is the last. -/
theorem exists_waits_iff : (∃ t, Waits log key t) ↔ ∃ t, ScheduledSince log key t := by
  constructor
  · -- the last schedule is one of the schedules
    rintro ⟨t, later, earlier, heq, hlater⟩
    exact ⟨t, later, earlier, heq, fun e he hends => hlater e he (.inl hends)⟩
  · -- by induction on the events, from the latest one back
    rintro ⟨t, h⟩
    induction log with
    | nil => exact absurd h not_since_nil
    | cons e log ih =>
      rcases since_cons.mp h with rfl | ⟨he, h⟩
      · exact ⟨t, waits_cons.mpr (.inl rfl)⟩
      · obtain ⟨u, hu⟩ := ih h
        -- only a schedule of the same key takes the place of the one before
        cases e with
        | scheduled k now =>
          by_cases hk : k = key
          · exact ⟨now, waits_cons.mpr (.inl (hk ▸ rfl))⟩
          · -- the schedule of another key does not start this one over
            exact ⟨u, waits_cons.mpr (.inr ⟨⟨he, hk⟩, hu⟩)⟩
        | cancelled | cleared | took => exact ⟨u, waits_cons.mpr (.inr ⟨⟨he, id⟩, hu⟩)⟩

/-! ### The deadlines are those of the waits -/

/-- The deadlines tell which keys wait after these events, and from when. -/
structure Tracks (delay : Nat) (log : List Event) (d : Debouncer) : Prop where
  /-- The delay has not been changed. -/
  delay_eq : d.delay = delay
  /-- A deadline is the time of the schedule that the key waits from, plus the delay. -/
  get?_iff : ∀ key moment,
    d.deadlines.get? key = some moment ↔ ∃ t, Waits log key t ∧ moment = t + delay

/-- **A call keeps track of the waits.** -/
theorem Tracks.step (h : Tracks delay log d) (call : Call) :
    Tracks delay (d.event call :: log) (d.after call) := by
  obtain ⟨rfl, hget⟩ := h
  refine ⟨by cases call <;> rfl, fun key moment => ?_⟩
  simp only [waits_cons]
  -- the call either settles the wait of this key, or it leaves the key alone
  cases call with
  | schedule k now =>
    by_cases hk : key = k
    · subst hk
      simp [after, event, Event.Starts, eq_comm]
    · simp [after, event, get?_schedule_of_ne hk, hget, Event.Ends, Event.Starts, Ne.symm hk]
  | cancel k =>
    by_cases hk : key = k
    · subst hk
      simp [after, event, Event.Ends]
    · simp [after, event, get?_cancel_of_ne hk, hget, Event.Ends, Event.Starts, Ne.symm hk]
  | clear => simp [after, event, clear, idle, Event.Ends]
  | take now =>
    by_cases hk : key ∈ d.due now
    · simp [after, event, get?_deliver, hk, Event.Ends]
    · simp [after, event, get?_deliver, hk, hget, Event.Ends, Event.Starts]

/-- What waits is tracked through every row of calls. -/
theorem tracks_course (delay : Nat) (calls : List Call) :
    Tracks delay (course delay calls).2 (course delay calls).1 := by
  induction calls with
  | nil => exact ⟨rfl, by simp [course, idle, Waits, not_since_nil]⟩
  | cons call earlier ih => exact ih.step call

/-- What happened up to some event is the course of the calls up to then. -/
theorem exists_course_of_append {calls : List Call} {later earlier : List Event} {e : Event}
    (h : (course delay calls).2 = later ++ e :: earlier) :
    ∃ call before, earlier = (course delay before).2 ∧ e = (course delay before).1.event call := by
  induction calls generalizing later with
  | nil => simp [course] at h
  | cons call before ih =>
    rcases List.cons_eq_append_iff.mp h with ⟨-, heq⟩ | ⟨later, -, heq⟩
    · obtain ⟨rfl, rfl⟩ := List.cons.inj heq
      exact ⟨call, before, rfl, rfl⟩
    · -- the event lies back, before the last call
      exact ih heq

/-! ### What is due, and what comes next -/

/-- A key is pending if it waits from some moment. -/
theorem Tracks.isPending_iff (h : Tracks delay log d) :
    d.isPending key = true ↔ ∃ t, Waits log key t := by
  rw [isPending, Keyed.contains, Option.isSome_iff_exists]
  constructor
  · rintro ⟨moment, hmoment⟩
    obtain ⟨t, ht, -⟩ := (h.get?_iff key moment).mp hmoment
    exact ⟨t, ht⟩
  · rintro ⟨t, ht⟩
    exact ⟨t + delay, (h.get?_iff key _).mpr ⟨t, ht, rfl⟩⟩

/-- A key is due if it has waited for the delay. -/
theorem Tracks.mem_due_iff (h : Tracks delay log d) :
    key ∈ d.due now ↔ ∃ t, Waits log key t ∧ t + delay ≤ now := by
  rw [mem_due]
  constructor
  · rintro ⟨moment, hmoment, hle⟩
    obtain ⟨t, ht, rfl⟩ := (h.get?_iff key moment).mp hmoment
    exact ⟨t, ht, hle⟩
  · rintro ⟨t, ht, hle⟩
    exact ⟨t + delay, (h.get?_iff key _).mpr ⟨t, ht, rfl⟩, hle⟩

/-- What is due is handed out in the order of the keys. -/
theorem due_ascending (d : Debouncer) (now : Nat) : (d.due now).Pairwise (· < ·) :=
  d.deadlines.keys_ascending.sublist (List.filter_sublist.map _)

/-- To deliver is to cancel the keys that are due, one after the other. -/
theorem deliver_eq_foldl_cancel (d : Debouncer) (now : Nat) :
    d.deliver now = (d.due now).foldl cancel d := by
  -- cancelling leaves the delay alone, and of the deadlines it takes those of its keys
  have hdelay (keys : List Nat) (d : Debouncer) : (keys.foldl cancel d).delay = d.delay := by
    induction keys generalizing d with
    | nil => rfl
    | cons k keys ih => exact ih (d.cancel k)
  have hget (keys : List Nat) (d : Debouncer) (key : Nat) :
      (keys.foldl cancel d).deadlines.get? key =
        if key ∈ keys then none else d.deadlines.get? key := by
    induction keys generalizing d with
    | nil => rfl
    | cons k keys ih =>
      rw [List.foldl_cons, ih]
      by_cases hk : key = k
      · simp [hk]
      · simp [hk, get?_cancel_of_ne]
  -- one filter over the deadlines finds the same keys gone
  have hmaps : (d.deliver now).deadlines = ((d.due now).foldl cancel d).deadlines :=
    Keyed.ext_get? fun key => by rw [get?_deliver, hget]
  calc d.deliver now = ⟨d.delay, (d.deliver now).deadlines⟩ := rfl
    _ = ⟨((d.due now).foldl cancel d).delay, ((d.due now).foldl cancel d).deadlines⟩ := by
      rw [hmaps, hdelay]

/-- The next deadline is one of the deadlines, and none comes before it. -/
theorem nextDeadline?_eq_some_iff {moment : Nat} :
    d.nextDeadline? = some moment ↔ (∃ key, d.deadlines.get? key = some moment) ∧
      ∀ key other, d.deadlines.get? key = some other → moment ≤ other := by
  rw [nextDeadline?, List.min?_eq_some_iff, Keyed.mem_values]
  refine and_congr_right fun _ => ⟨fun h key other hother => ?_, fun h other hother => ?_⟩
  · exact h other (Keyed.mem_values.mpr ⟨key, hother⟩)
  · obtain ⟨key, hkey⟩ := Keyed.mem_values.mp hother
    exact h key other hkey

/-- There is none where nothing is pending. -/
theorem nextDeadline?_eq_none_iff : d.nextDeadline? = none ↔ ∀ key, d.isPending key = false := by
  rw [nextDeadline?, List.min?_eq_none_iff, List.eq_nil_iff_forall_not_mem]
  constructor
  · -- a pending key would have a deadline
    intro h key
    rw [isPending, Keyed.contains, Option.isSome_eq_false_iff, Option.isNone_iff_eq_none,
      Option.eq_none_iff_forall_ne_some]
    exact fun moment hmoment => h moment (Keyed.mem_values.mpr ⟨key, hmoment⟩)
  · -- and the key of a deadline is pending
    intro h moment hmoment
    obtain ⟨key, hkey⟩ := Keyed.mem_values.mp hmoment
    have hpending : d.isPending key = true := by rw [isPending, Keyed.contains, hkey]; rfl
    rw [h key] at hpending
    cases hpending

/-- Something is due when the next deadline has come. -/
theorem due_nextDeadline {moment : Nat} (h : d.nextDeadline? = some moment) : d.due moment ≠ [] := by
  obtain ⟨⟨key, hkey⟩, -⟩ := nextDeadline?_eq_some_iff.mp h
  exact List.ne_nil_of_mem (mem_due.mpr ⟨moment, hkey, Nat.le_refl moment⟩)

/-! ### Bursts -/

/-- A key that was handed out does not wait, until it is scheduled again. -/
theorem exists_scheduled_of_waits {between earlier : List Event} {keys : List Nat} {t : Nat}
    (hkey : key ∈ keys) (h : Waits (between ++ .took now keys :: earlier) key t) :
    .scheduled key t ∈ between := by
  -- by induction on what happened since the take, the latest first
  induction between with
  | nil =>
    rcases waits_cons.mp h with heq | ⟨he, -⟩
    · cases heq
    · -- the take itself was the end of the wait
      exact absurd hkey he.1
  | cons e between ih =>
    rcases waits_cons.mp h with rfl | ⟨-, h⟩
    · exact List.mem_cons_self
    · exact List.mem_cons_of_mem e (ih h)

/-- What a debouncer promises after what happened. -/
structure Coalesces (delay : Nat) (log : List Event) (d : Debouncer) : Prop where
  /-- A key is pending if it was scheduled after the last end of its wait. -/
  pending : ∀ key, d.isPending key = true ↔ ∃ t, ScheduledSince log key t
  /-- Its deadline is the time of its last schedule plus the delay. -/
  deadline : ∀ key moment,
    d.deadlines.get? key = some moment ↔ ∃ t, Waits log key t ∧ moment = t + delay
  /-- What a take would hand out now is in order, -/
  ascending : ∀ now, (d.due now).Pairwise (· < ·)
  /-- and it is what has waited for the delay since it was last scheduled. -/
  due : ∀ now key, key ∈ d.due now ↔ ∃ t, Waits log key t ∧ t + delay ≤ now
  /-- A take ends the waits of what it hands out, -/
  released : ∀ now, ∀ key ∈ d.due now, (d.deliver now).deadlines.get? key = none
  /-- and leaves every other deadline as it is. -/
  untouched : ∀ now, ∀ key ∉ d.due now,
    (d.deliver now).deadlines.get? key = d.deadlines.get? key
  /-- Nothing was handed out before the delay had passed since its last schedule. -/
  punctual : ∀ later earlier now keys, log = later ++ .took now keys :: earlier →
    keys.Pairwise (· < ·) ∧ ∀ key, key ∈ keys ↔ ∃ t, Waits earlier key t ∧ t + delay ≤ now
  /-- Nothing was handed out twice without a schedule in between. -/
  once : ∀ later between earlier now now' keys keys',
    log = later ++ .took now' keys' :: (between ++ .took now keys :: earlier) →
      ∀ key ∈ keys, key ∈ keys' → ∃ t, .scheduled key t ∈ between
  /-- The next deadline is the least one of those that wait. -/
  next : ∀ moment, d.nextDeadline? = some moment ↔
    (∃ key t, Waits log key t ∧ moment = t + delay) ∧
      ∀ key t, Waits log key t → moment ≤ t + delay
  /-- There is no next deadline only if nothing waits. -/
  next_none : d.nextDeadline? = none ↔ ∀ key, d.isPending key = false
  /-- A take at the next deadline hands something out. -/
  next_due : ∀ moment, d.nextDeadline? = some moment → d.due moment ≠ []

/-- **Bursts are coalesced,** whatever was called with whatever keys and times. -/
theorem coalesces_course (delay : Nat) (calls : List Call) :
    Coalesces delay (course delay calls).2 (course delay calls).1 := by
  have htracks := tracks_course delay calls
  generalize hd : (course delay calls).1 = d at htracks ⊢
  generalize hlog : (course delay calls).2 = log at htracks ⊢
  -- a take that lies back was one from the debouncer of that moment
  have hpunctual : ∀ later earlier now keys, log = later ++ .took now keys :: earlier →
      keys.Pairwise (· < ·) ∧
        ∀ key, key ∈ keys ↔ ∃ t, Waits earlier key t ∧ t + delay ≤ now := by
    intro later earlier now keys heq
    obtain ⟨call, before, rfl, he⟩ := exists_course_of_append (hlog.trans heq)
    cases call with
    | take =>
      obtain ⟨rfl, rfl⟩ := Event.took.inj he
      exact ⟨due_ascending _ _, fun key => (tracks_course delay before).mem_due_iff⟩
    | schedule | cancel | clear => cases he
  have hnext (moment : Nat) : d.nextDeadline? = some moment ↔
      (∃ key t, Waits log key t ∧ moment = t + delay) ∧
        ∀ key t, Waits log key t → moment ≤ t + delay := by
    rw [nextDeadline?_eq_some_iff]
    refine and_congr (exists_congr fun key => htracks.get?_iff key moment) ⟨?_, ?_⟩
    · -- no deadline comes before, and those are the ends of the waits
      intro h key t ht
      exact h key (t + delay) ((htracks.get?_iff key _).mpr ⟨t, ht, rfl⟩)
    · intro h key other hother
      obtain ⟨t, ht, rfl⟩ := (htracks.get?_iff key other).mp hother
      exact h key t ht
  exact {
    pending := fun key => htracks.isPending_iff.trans exists_waits_iff
    deadline := htracks.get?_iff
    ascending := due_ascending d
    due := fun now key => htracks.mem_due_iff
    released := fun now key hkey => by rw [get?_deliver, if_pos hkey]
    untouched := fun now key hkey => by rw [get?_deliver, if_neg hkey]
    punctual := hpunctual
    once := by
      intro later between earlier now now' keys keys' heq key hkey hkey'
      -- the later take found the key waiting, and the earlier one had ended its wait
      obtain ⟨t, ht, -⟩ := ((hpunctual _ _ _ _ heq).2 key).mp hkey'
      exact ⟨t, exists_scheduled_of_waits hkey ht⟩
    next := hnext
    next_none := nextDeadline?_eq_none_iff
    next_due := fun moment => due_nextDeadline }

/-- A burst of three is handed out once, when the last of it has rested. -/
example : (course 50 [.take 500, .take 80, .take 60, .schedule 1 30, .schedule 1 10,
    .schedule 1 0]).2.take 3 = [.took 500 [], .took 80 [1], .took 60 []] := by decide

end CurvePlot.Debouncer
