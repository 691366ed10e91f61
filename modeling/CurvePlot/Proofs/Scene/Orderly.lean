import CurvePlot.Proofs.Scene.Handed
import CurvePlot.Proofs.Scene.Loading
/-!
# Who waits is there

A scene keeps five maps by the numbers of its equations: the rows, the texts that wait, the
moments of edits and of refreshes, and the passes that are awaited. Different operations
write different ones of them, and a poll writes some while it works through a list that
was read from another. `Orderly` says that they agree after every run, and two things
follow from it.

* A poll finds what it looks for (`Finds`). When the turn of an edit comes, its text is
  still there and is not refused, and when the turn of a refresh comes, so is its equation.
  Edits of other equations may have come in between.
* No number is given out twice. The numbers that a run gives out are the next ones in a
  row (`Counts.run`), whatever is removed, cleared or loaded meanwhile.

`Tidy` has the edits, and `Current` has the passes. What is left is `Attended`: a refresh
waits for an equation that is there. A removal that forgot to call it off would break it.
-/

namespace CurvePlot

namespace Scene

variable {s s' : Scene} {id : Nat}

/-! ### Refreshes -/

/-- **Every refresh that waits has an equation.** -/
def Attended (s : Scene) : Prop :=
  ∀ id moment, s.refreshes.deadlines.get? id = some moment → s.text? id ≠ none

namespace Attended

/-- No refresh begins to wait, and no equation goes. -/
theorem mono (h : s.Attended) (hs : NoNewWait s s')
    (htext : ∀ id, s'.text? id = none → s.text? id = none) : s'.Attended := by
  intro id moment hwaits hnone
  exact h id moment (hs.refresh id moment hwaits) (htext id hnone)

theorem same (h : s.Attended) (hs : NoNewWait s s') (htexts : SameTexts s s') : s'.Attended :=
  h.mono hs fun id hnone => (htexts.text id).symm.trans hnone

/-- A row may be put under any number. -/
theorem put (h : s.Attended) (hs : NoNewWait s s') {row : Row} {next : Nat}
    (htexts : SameTexts { s with rows := s.rows.insert id row, nextId := next } s') :
    s'.Attended := by
  refine h.mono hs fun i hnone => ?_
  -- the row is there now, and the others are as before
  rw [htexts.text, text?_insert] at hnone
  split at hnone
  · cases hnone
  · exact hnone

theorem add (h : s.Attended) (text : String) : (s.add text).Attended := by
  obtain ⟨row, -, hsame⟩ := add_sameTexts s text
  exact h.put (NoNewWait.add s text) hsame

theorem foldl_add (h : s.Attended) (texts : List String) : (texts.foldl Scene.add s).Attended := by
  induction texts generalizing s with
  | nil => exact h
  | cons text texts ih => exact ih (h.add text)

/-- **The refresh of an equation goes with it.** -/
theorem remove (h : s.Attended) (hs : s.remove id = .ok s') : s'.Attended := by
  have hwait := NoNewWait.remove hs
  have htext : ∀ i, s'.text? i = if i = id then none else s.text? i := by
    intro i
    rw [(remove_sameTexts hs).text]
    exact text?_erase s id i
  intro i moment hwaits hnone
  by_cases hi : i = id
  · -- its refresh was called off
    obtain ⟨-, rfl⟩ := remove_eq_ok hs
    subst hi
    have hcancelled : (s.refreshes.cancel i).deadlines.get? i = some moment := hwaits
    rw [Debouncer.get?_cancel_self] at hcancelled
    cases hcancelled
  · -- the refresh of another equation waits as before
    rw [htext, if_neg hi] at hnone
    exact h i moment (hwait.refresh i moment hwaits) hnone

theorem setText {text : String} (h : s.Attended) (hs : s.setText id text = .ok s') :
    s'.Attended := by
  rcases setText_cases hs with ⟨-, hremove⟩ | ⟨-, row, -, hsame⟩
  · exact h.remove hremove
  · exact h.put (NoNewWait.setText hs) hsame

/-- **A slider belongs to an equation,** so the refresh that is asked for has one. -/
theorem setParameter {name : Char} {value : Float} {now : Nat} (h : s.Attended)
    (hs : s.setParameter id name value now = .ok s') : s'.Attended := by
  have htexts := SameTexts.setParameter hs
  obtain ⟨r, parameters, hr, -, heq⟩ := setParameter_eq_ok hs
  intro i moment hwaits
  rw [htexts.text]
  by_cases hi : i = id
  · -- the slider was moved, so its equation is there
    subst hi
    rw [text?, hr]
    exact Option.some_ne_none _
  · have hwaits : (s.refreshes.schedule id now).deadlines.get? i = some moment := by
      rw [heq] at hwaits
      exact hwaits
    rw [Debouncer.get?_schedule_of_ne hi] at hwaits
    exact h i moment hwaits

theorem applyEdit {state : Scene × Bool} (h : state.1.Attended) (i : Nat) :
    (Scene.applyEdit state i).1.Attended := by
  unfold Scene.applyEdit
  -- an edit takes its text out first, and is then set or refused
  cases hpending : state.1.pendingText.get? i with
  | none => exact h
  | some text =>
    have htaken : (state.1.takeText i).Attended := h
    dsimp only
    cases hset : Scene.setText { state.1 with pendingText := state.1.pendingText.erase i } i text with
    | ok s' => exact htaken.setText hset
    | error e => exact htaken

theorem foldl_applyEdit {state : Scene × Bool} (h : state.1.Attended) (ids : List Nat) :
    (ids.foldl Scene.applyEdit state).1.Attended :=
  List.foldlRecOn ids Scene.applyEdit (motive := fun state => state.1.Attended) h
    fun _ ht i _ => ht.applyEdit i

theorem start (settings : Settings Float) (width height : Float) :
    (Scene.new settings width height).Attended := by
  intro id moment hwaits
  cases hwaits

theorem clear (s : Scene) : s.clear.Attended := by
  intro id moment hwaits
  cases hwaits

/-- **Every action leaves all refreshes their equations.** -/
theorem act (h : s.Attended) (a : Action) : (s.act a).Attended := by
  cases a with
  | add text => exact h.add text
  | addColored text color =>
    obtain ⟨row, -, hsame⟩ := addColored_sameTexts s text color
    exact h.put (NoNewWait.addColored s text color) hsame
  | remove i => exact after_of h fun _ hs => h.remove hs
  | setText i text => exact after_of h fun _ hs => h.setText hs
  | editText i text now =>
    refine after_of h fun s' hs => ?_
    obtain ⟨-, rfl⟩ := editText_eq_ok hs
    exact h
  | clear => exact clear s
  | loadSheet sheet => exact (clear s).foldl_add (Sheet.read sheet)
  | setParameter i name value now => exact after_of h fun _ hs => h.setParameter hs
  | applyEdits now =>
    have hdelivered : Scene.Attended { s with edits := s.edits.deliver now } := h
    exact @foldl_applyEdit (_, false) hdelivered (s.edits.due now)
  | _ => exact h.same (.act s id) (.act s id)

theorem run (h : s.Attended) (actions : List Action) : (s.run actions).Attended :=
  run_induction (fun _ a ht => ht.act a) h actions

end Attended

/-! ### Numbers -/

/-- The numbers of equations that are added one after the other. -/
def numbers (s : Scene) : List String → List Nat
  | [] => []
  | text :: texts => s.nextId :: (s.add text).numbers texts

/-- The numbers that an action gives to equations. -/
def numbered (s : Scene) : Action → List Nat
  | .add _ | .addColored _ _ => [s.nextId]
  | .loadSheet sheet => s.clear.numbers (Sheet.read sheet)
  | _ => []

/-- **The numbers that a run gives out,** the earliest first. -/
def given (s : Scene) : List Action → List Nat
  | [] => []
  | a :: actions => s.numbered a ++ (s.act a).given actions

/-- The numbers that were given out are the next ones in a row. -/
def Counts (s : Scene) (given : List Nat) (s' : Scene) : Prop :=
  given = List.range' s.nextId given.length ∧ s'.nextId = s.nextId + given.length

namespace Counts

variable {s'' : Scene} {first rest : List Nat}

/-- No number is given out. -/
theorem nil (h : s'.nextId = s.nextId) : Counts s [] s' := ⟨rfl, h⟩

/-- One number is given out. -/
theorem one (h : s'.nextId = s.nextId + 1) : Counts s [s.nextId] s' := ⟨rfl, h⟩

theorem append (h : Counts s first s') (h' : Counts s' rest s'') :
    Counts s (first ++ rest) s'' := by
  refine ⟨?_, ?_⟩
  · calc first ++ rest
        = List.range' s.nextId first.length ++ List.range' s'.nextId rest.length := by
          rw [← h.1, ← h'.1]
      _ = List.range' s.nextId (first.length + rest.length) := by
          rw [h.2, List.range'_append_1]
      _ = List.range' s.nextId (first ++ rest).length := by rw [List.length_append]
  · rw [h'.2, h.2, List.length_append, Nat.add_assoc]

/-- A scene counts on from where another one does. -/
theorem of_nextId (h : Counts s' first s'') (hnext : s'.nextId = s.nextId) :
    Counts s first s'' := by
  rw [Counts, ← hnext]
  exact h

theorem numbers (s : Scene) (texts : List String) :
    Counts s (s.numbers texts) (texts.foldl Scene.add s) := by
  induction texts generalizing s with
  | nil => exact nil rfl
  | cons text texts ih =>
    have hfirst : Counts s [s.nextId] (s.add text) := one (nextId_add s text)
    exact hfirst.append (ih (s.add text))

/-- **An action gives out the next numbers,** if any. None goes back. -/
theorem act (s : Scene) (a : Action) : Counts s (s.numbered a) (s.act a) := by
  cases a with
  | add text => exact one (nextId_add s text)
  | addColored text color =>
    obtain ⟨row, -, hsame⟩ := addColored_sameTexts s text color
    exact one hsame.nextId
  | remove i =>
    exact after_of (I := fun t => Counts s [] t) (nil rfl) fun _ hs => nil (remove_sameTexts hs).nextId
  | setText i text =>
    refine after_of (I := fun t => Counts s [] t) (nil rfl) fun _ hs => nil ?_
    rcases setText_cases hs with ⟨-, hremove⟩ | ⟨-, row, -, hsame⟩
    · exact (remove_sameTexts hremove).nextId
    · exact hsame.nextId
  | editText i text now =>
    refine after_of (I := fun t => Counts s [] t) (nil rfl) fun s' hs => nil ?_
    rw [editText_sameTexts hs]
  | clear => exact nil rfl
  | loadSheet sheet =>
    -- clearing does not start the numbers over
    exact (numbers s.clear (Sheet.read sheet)).of_nextId rfl
  | applyEdits now => exact nil (applyEdits_edited s now).nextId
  | _ => exact nil (SameTexts.act s id).nextId

theorem run (s : Scene) (actions : List Action) : Counts s (s.given actions) (s.run actions) := by
  induction actions generalizing s with
  | nil => exact nil rfl
  | cons a actions ih => exact (act s a).append (ih (s.act a))

/-- They rise, and the next number is above all of them. -/
theorem rises (h : Counts s first s') :
    first.Pairwise (· < ·) ∧ ∀ i ∈ first, i < s'.nextId := by
  obtain ⟨hrow, hnext⟩ := h
  -- they are a piece of the natural numbers
  refine ⟨?_, fun i hi => ?_⟩
  · rw [hrow]
    exact List.pairwise_lt_range'
  · rw [hrow] at hi
    rw [hnext]
    exact (List.mem_range'_1.mp hi).2

end Counts

/-! ### Order -/

/-- **All that waits and all that is awaited is of an equation that is there.** -/
structure Orderly (s : Scene) : Prop where
  /-- A text waits exactly as long as its moment does. -/
  waiting : s.pendingText.keys = s.edits.deadlines.keys
  /-- The equation of every edit that waits is there. -/
  edit : ∀ id ∈ s.edits.deadlines.keys, id ∈ s.rows.keys
  /-- So is that of every refresh. -/
  refresh : ∀ id ∈ s.refreshes.deadlines.keys, id ∈ s.rows.keys
  /-- A pass is awaited for an implicit curve only. -/
  pass : ∀ id ∈ s.jobs.inFlight.keys, ∃ r, s.rows.get? id = some r ∧ r.equation.isImplicit = true
  /-- The next number is new. -/
  row_lt : ∀ id ∈ s.rows.keys, id < s.nextId

theorem mem_keys_of_text? (h : s.text? id ≠ none) : id ∈ s.rows.keys := by
  by_contra hnot
  exact h (text?_eq_none.mpr (Keyed.not_mem_keys.mp hnot))

/-- Order is kept by three invariants together. -/
theorem Tidy.orderly {i n : Nat} (ht : s.Tidy) (hs : s.Attended) (hc : s.Current i n) :
    s.Orderly where
  waiting := Keyed.keys_eq_of_get?_eq_none_iff fun id => (ht.waiting_iff id).symm
  edit id hid := by
    refine mem_keys_of_text? fun hnone => ?_
    have hwaits : s.edits.deadlines.get? id = none :=
      (ht.waiting_iff id).mpr (ht.waiting_none id hnone)
    exact Keyed.not_mem_keys.mpr hwaits hid
  refresh id hid := by
    obtain ⟨moment, hmoment⟩ := Keyed.mem_keys.mp hid
    exact mem_keys_of_text? (hs id moment hmoment)
  pass id hid := by
    obtain ⟨x, hx⟩ := Keyed.mem_keys.mp hid
    -- the pass that is awaited is live, and live passes trace the equations as they are
    obtain ⟨job, ⟨⟨-, r, hr, himplicit, -⟩, -⟩, rfl, -⟩ := hc.passes.inFlight hx
    exact ⟨r, hr, himplicit⟩
  row_lt := hc.keys_lt

/-! ### What a poll finds -/

/-- **A poll finds what it looks for.** Each edit that is due is taken in its turn, when
those before it have come, and each refresh that is due when all edits have come and the
refreshes before it were made. -/
structure Finds (s : Scene) (now : Nat) : Prop where
  /-- In its turn, an edit has its text, and the text is not refused. -/
  edit : ∀ before id later, s.edits.due now = before ++ id :: later →
    let t := (before.foldl applyEdit ({ s with edits := s.edits.deliver now }, false)).1
    ∃ text, t.pendingText.get? id = some text ∧ ∃ s', (t.takeText id).setText id text = .ok s'
  /-- In its turn, a refresh has its equation. -/
  refresh : ∀ before id later, (s.applyEdits now).1.refreshes.due now = before ++ id :: later →
    let t := before.foldl refreshEquation
      { (s.applyEdits now).1 with refreshes := (s.applyEdits now).1.refreshes.deliver now }
    ∃ r, t.rows.get? id = some r

/-- Edits of other equations come first, and they neither take the text nor the equation. -/
theorem Tidy.finds (ht : s.Tidy) (hs : s.Attended) (now : Nat) : s.Finds now where
  edit before id later hdue := by
    intro t
    -- no equation is due twice, so the edits before it are those of others
    have hnodup : (before ++ id :: later).Nodup := hdue ▸ s.edits.nodup_due now
    have hfirst : id ∉ before :=
      fun hmem => (List.nodup_append.mp hnodup).2.2 id hmem id List.mem_cons_self rfl
    have hid : id ∈ s.edits.due now := by
      rw [hdue]
      exact List.mem_append_right before List.mem_cons_self
    obtain ⟨text, old, htext, hold⟩ := ht.exists_of_due hid
    have hcame : Edited before { s with edits := s.edits.deliver now } t :=
      edited_foldl_applyEdit ({ s with edits := s.edits.deliver now }, false) before
    refine ⟨text, ?_, ?_⟩
    · rw [hcame.pendingText, if_neg hfirst]
      exact htext
    · cases hset : (t.takeText id).setText id text with
      | ok s' => exact ⟨s', rfl⟩
      -- only an equation that is not there refuses a text
      | error e =>
        have hnone : (t.takeText id).text? id = none := text?_eq_none.mpr (setText_eq_error hset)
        rw [text?_takeText, hcame.text, if_neg hfirst] at hnone
        exact absurd (hold.symm.trans hnone) (Option.some_ne_none old)
  refresh before id later hdue := by
    intro t
    have hid : id ∈ (s.applyEdits now).1.refreshes.due now := by
      rw [hdue]
      exact List.mem_append_right before List.mem_cons_self
    obtain ⟨moment, hmoment, -⟩ := Debouncer.mem_due.mp hid
    -- the equation was there before the refreshes, and these remove none
    have hrow : id ∈ (s.applyEdits now).1.rows.keys :=
      mem_keys_of_text? (hs.act (.applyEdits now) id moment hmoment)
    have hkeys : t.rows.keys = (s.applyEdits now).1.rows.keys :=
      (Refreshed.foldl_refreshEquation _ before).keys
    exact Keyed.mem_keys.mp (hkeys ▸ hrow)

/-! ### Runs -/

/-- **After every run, the maps of a scene agree,** a poll finds what it looks for, and an
equation that is added gets a number that is above all numbers that were given out. -/
theorem run_orderly (settings : Settings Float) (width height : Float) (actions : List Action) :
    let start := Scene.new settings width height
    let s := start.run actions
    s.Orderly ∧ (∀ now, s.Finds now) ∧ (start.given actions).Pairwise (· < ·) ∧
      (∀ i ∈ start.given actions, i < s.nextId) ∧
      ∀ text color, s.text? s.nextId = none ∧ (s.add text).text? s.nextId = some text ∧
        (s.addColored text color).text? s.nextId = some text := by
  intro start s
  -- each invariant is kept by every action
  have htidy : s.Tidy := run_induction (fun _ a ht => ht.act a) (.start settings width height) actions
  have hattended : s.Attended := (Attended.start settings width height).run actions
  have hcurrent : s.Current 0 0 := (Current.start settings width height).run actions
  obtain ⟨hrises, hbelow⟩ := (Counts.run start actions).rises
  refine ⟨htidy.orderly hattended hcurrent, fun now => htidy.finds hattended now, hrises, hbelow,
    fun text color => ⟨?_, ?_, ?_⟩⟩
  · -- the number is above those of all equations
    rw [Option.eq_none_iff_forall_ne_some]
    exact fun old hold => Nat.lt_irrefl _ (htidy.text_lt s.nextId old hold)
  · obtain ⟨row, hraw, hsame⟩ := add_sameTexts s text
    rw [hsame.text, text?_insert, if_pos rfl, hraw]
  · obtain ⟨row, hraw, hsame⟩ := addColored_sameTexts s text color
    rw [hsame.text, text?_insert, if_pos rfl, hraw]

end Scene

end CurvePlot
