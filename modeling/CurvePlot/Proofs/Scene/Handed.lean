import CurvePlot.Proofs.Scene.Edits
import Mathlib.Logic.Function.Basic
/-!
# The text that was handed last

An equation is handed its texts by `add`, `setText` and `editText`, and one should
expect it to read what it was handed last, as soon as no edit waits for it. The ledger
`handed` writes down what was handed last to each equation, and `Faithful` says that
the equations read so.

They need not. `setText` does not put an end to the wait of an edit, so an edit may
come later and bring a text that was handed before. `faithful_iff` says that nothing
else goes wrong: a run is faithful throughout exactly if every edit that comes brings
the text that was handed last to its equation.

* `Tidy` is the invariant: an equation is there for every edit that waits, and a text
  waits exactly as long as its moment does. It holds after every run.
* `faithful_applyEdits_iff` is the step at which faith is lost or kept.
* `Faithful.act` says that no other action loses it.
-/

namespace CurvePlot.Scene

/-! ### The ledger -/

/-- What was handed last to each equation. -/
abbrev Ledger := Nat → Option String

/-- Texts are handed to new equations. -/
def Ledger.addAll (ledger : Ledger) (next : Nat) : List String → Ledger
  | [] => ledger
  | text :: texts => Ledger.addAll (Function.update ledger next (some text)) (next + 1) texts

/-- What an action hands to equations. -/
def hand (s : Scene) (ledger : Ledger) : Action → Ledger
  | .add text | .addColored text _ => Function.update ledger s.nextId (some text)
  | .setText id text | .editText id text _ => Function.update ledger id (some text)
  | .loadSheet sheet => ledger.addAll s.nextId (Sheet.read sheet)
  | _ => ledger

/-- **What was handed last to each equation** when a row of actions is over. -/
def handed (s : Scene) (ledger : Ledger) : List Action → Ledger
  | [] => ledger
  | a :: actions => (s.act a).handed (s.hand ledger a) actions

/-- **The equations read what they were handed last,** if no edit waits for them. -/
def Faithful (s : Scene) (ledger : Ledger) : Prop :=
  ∀ id text, s.text? id = some text → s.edits.isPending id = false → ledger id = some text

/-- The edits that come by a moment bring what was handed last to their equations. A
blank one brings no text. -/
def BringsLast (s : Scene) (ledger : Ledger) (now : Nat) : Prop :=
  ∀ id ∈ s.edits.due now, ∀ text, s.pendingText.get? id = some text → ¬ Blank text →
    ledger id = some text

/-! ### Order among equations and edits -/

/-- **Every edit that waits has an equation and a text.** -/
structure Tidy (s : Scene) : Prop where
  /-- No number is given out twice. -/
  text_lt : ∀ id text, s.text? id = some text → id < s.nextId
  /-- A text waits as long as its moment does. -/
  waiting_iff : ∀ id, s.edits.deadlines.get? id = none ↔ s.pendingText.get? id = none
  /-- Nothing waits without its equation. -/
  waiting_none : ∀ id, s.text? id = none → s.pendingText.get? id = none

variable {s s' : Scene} {ledger : Ledger}

/-- Nothing is pending for an equation exactly if there is no moment to wait for. -/
theorem isPending_eq_false_iff {d : Debouncer} {key : Nat} :
    d.isPending key = false ↔ d.deadlines.get? key = none := by
  rw [Debouncer.isPending, Keyed.contains, Option.isSome_eq_false_iff, Option.isNone_iff_eq_none]

/-- What is tidy stays so where no text changes, -/
theorem Tidy.same (h : s.Tidy) (hs : SameTexts s s') : s'.Tidy where
  text_lt id text htext := by
    rw [hs.nextId]
    exact h.text_lt id text (hs.text id ▸ htext)
  waiting_iff id := by
    rw [hs.edits, hs.pendingText]
    exact h.waiting_iff id
  waiting_none id htext := by
    rw [hs.pendingText]
    exact h.waiting_none id (hs.text id ▸ htext)

/-- and what is faithful does. -/
theorem Faithful.same (h : s.Faithful ledger) (hs : SameTexts s s') : s'.Faithful ledger := by
  intro id text htext hpending
  rw [hs.text] at htext
  rw [hs.edits] at hpending
  exact h id text htext hpending

/-! ### Putting, removing and waiting -/

/-- A text that is put is found under its number. -/
theorem text?_insert (s : Scene) (id : Nat) (row : Row) (next i : Nat) :
    text? { s with rows := s.rows.insert id row, nextId := next } i =
      if i = id then some row.equation.raw else s.text? i := by
  rw [text?]
  by_cases hi : i = id
  · rw [if_pos hi, hi, Keyed.get?_insert_self]
    rfl
  · rw [if_neg hi, Keyed.get?_insert_of_ne s.rows row hi]
    rfl

/-- A text that is removed is found no more. -/
theorem text?_erase (s : Scene) (id i : Nat) :
    ((s.rows.erase id).get? i).map (·.equation.raw) = if i = id then none else s.text? i := by
  by_cases hi : i = id
  · rw [if_pos hi, hi, Keyed.get?_erase_self]
    rfl
  · rw [if_neg hi, Keyed.get?_erase_of_ne s.rows hi]
    rfl

/-- A row is put under a number. -/
theorem Tidy.put (h : s.Tidy) {id next : Nat} (row : Row) (hid : id < next)
    (hnext : s.nextId ≤ next) :
    Tidy { s with rows := s.rows.insert id row, nextId := next } where
  text_lt i text htext := by
    rw [text?_insert] at htext
    split at htext
    · -- the row that was put has a number below the next one
      next hi => exact hi ▸ hid
    · exact Nat.lt_of_lt_of_le (h.text_lt i text htext) hnext
  waiting_iff := h.waiting_iff
  waiting_none i htext := by
    rw [text?_insert] at htext
    split at htext
    · cases htext
    · exact h.waiting_none i htext

/-- What is put is what was handed. -/
theorem Faithful.put (h : s.Faithful ledger) (id next : Nat) {row : Row} {new : String}
    (hraw : row.equation.raw = new) :
    Faithful { s with rows := s.rows.insert id row, nextId := next }
      (Function.update ledger id (some new)) := by
  intro i text htext hpending
  rw [text?_insert] at htext
  split at htext
  · -- the row that was put reads the new text
    next hi => rw [hi, Function.update_self, ← hraw, htext]
  · next hi =>
    rw [Function.update_of_ne hi]
    exact h i text htext hpending

/-- An equation is removed with the edit that waits for it. -/
theorem Tidy.drop (h : s.Tidy) (id : Nat) :
    Tidy { s with
      rows := s.rows.erase id
      edits := s.edits.cancel id
      pendingText := s.pendingText.erase id } where
  text_lt i text htext := by
    have htext : (if i = id then none else s.text? i) = some text := text?_erase s id i ▸ htext
    split at htext
    · cases htext
    · exact h.text_lt i text htext
  waiting_iff i := by
    by_cases hi : i = id
    · subst hi
      -- neither a moment nor a text is left for the equation
      simp
    · show (s.edits.cancel id).deadlines.get? i = none ↔ (s.pendingText.erase id).get? i = none
      rw [Debouncer.get?_cancel_of_ne hi, Keyed.get?_erase_of_ne s.pendingText hi]
      exact h.waiting_iff i
  waiting_none i htext := by
    by_cases hi : i = id
    · subst hi
      exact Keyed.get?_erase_self s.pendingText i
    · have htext : (if i = id then none else s.text? i) = none := text?_erase s id i ▸ htext
      rw [if_neg hi] at htext
      exact (Keyed.get?_erase_of_ne s.pendingText hi).trans (h.waiting_none i htext)

/-- What is handed to an equation that is removed does not matter. -/
theorem Faithful.drop (h : s.Faithful ledger) (id : Nat) (text? : Option String) :
    Faithful { s with
      rows := s.rows.erase id
      edits := s.edits.cancel id
      pendingText := s.pendingText.erase id } (Function.update ledger id text?) := by
  intro i text htext hpending
  have htext : (if i = id then none else s.text? i) = some text := text?_erase s id i ▸ htext
  split at htext
  · -- the equation that is removed reads nothing
    cases htext
  · -- calling off an edit of another equation does not end this one's wait
    next hi =>
    rw [Function.update_of_ne hi]
    refine h i text htext ?_
    rw [isPending_eq_false_iff] at hpending ⊢
    exact (Debouncer.get?_cancel_of_ne hi).symm.trans hpending

/-- What is handed to an equation that is not there does not matter. -/
theorem Faithful.update_of_none (h : s.Faithful ledger) {id : Nat} (hid : s.rows.get? id = none)
    (text? : Option String) : s.Faithful (Function.update ledger id text?) := by
  intro i text htext hpending
  have hi : i ≠ id := by
    rintro rfl
    rw [text?_eq_none.mpr hid] at htext
    cases htext
  rw [Function.update_of_ne hi]
  exact h i text htext hpending

/-- A text begins to wait. -/
theorem Tidy.wait (h : s.Tidy) {id : Nat} (hid : s.rows.get? id ≠ none) (text : String)
    (now : Nat) :
    Tidy { s with
      pendingText := s.pendingText.insert id text
      edits := s.edits.schedule id now } where
  text_lt := h.text_lt
  waiting_iff i := by
    by_cases hi : i = id
    · subst hi
      -- the equation waits now, for a moment and with a text
      simp
    · show (s.edits.schedule id now).deadlines.get? i = none ↔
        (s.pendingText.insert id text).get? i = none
      rw [Debouncer.get?_schedule_of_ne hi, Keyed.get?_insert_of_ne s.pendingText text hi]
      exact h.waiting_iff i
  waiting_none i htext := by
    have hi : i ≠ id := by
      rintro rfl
      exact hid (text?_eq_none.mp htext)
    exact (Keyed.get?_insert_of_ne s.pendingText text hi).trans (h.waiting_none i htext)

/-- As long as a text waits, nothing is said about its equation. -/
theorem Faithful.wait (h : s.Faithful ledger) (id : Nat) (text : String) (now : Nat) :
    Faithful { s with
      pendingText := s.pendingText.insert id text
      edits := s.edits.schedule id now } (Function.update ledger id (some text)) := by
  intro i old htext hpending
  have hdeadline : (s.edits.schedule id now).deadlines.get? i = none :=
    isPending_eq_false_iff.mp hpending
  -- the equation itself waits now
  have hi : i ≠ id := by
    rintro rfl
    rw [Debouncer.get?_schedule_self] at hdeadline
    cases hdeadline
  rw [Function.update_of_ne hi]
  rw [Debouncer.get?_schedule_of_ne hi] at hdeadline
  exact h i old htext (isPending_eq_false_iff.mpr hdeadline)

/-- In a cleared scene nothing waits. -/
theorem Tidy.clear (s : Scene) : s.clear.Tidy where
  text_lt id text htext := by cases htext
  waiting_iff id := ⟨fun _ => rfl, fun _ => rfl⟩
  waiting_none id _ := rfl

/-- No equation is left that could read anything. -/
theorem Faithful.clear (s : Scene) (ledger : Ledger) : s.clear.Faithful ledger := by
  intro id text htext
  cases htext

/-! ### Sheets -/

/-- An equation that is added takes the next number. -/
theorem nextId_add (s : Scene) (text : String) : (s.add text).nextId = s.nextId + 1 := by
  obtain ⟨row, -, hsame⟩ := add_sameTexts s text
  exact hsame.nextId

/-- Adding an equation keeps the order, -/
theorem Tidy.add (h : s.Tidy) (text : String) : (s.add text).Tidy := by
  obtain ⟨row, -, hsame⟩ := add_sameTexts s text
  exact (h.put row (Nat.lt_succ_self _) (Nat.le_succ _)).same hsame

/-- and faith, if its text is written down. -/
theorem Faithful.add (h : s.Faithful ledger) (text : String) :
    (s.add text).Faithful (Function.update ledger s.nextId (some text)) := by
  obtain ⟨row, hraw, hsame⟩ := add_sameTexts s text
  exact (h.put s.nextId (s.nextId + 1) hraw).same hsame

/-- Adding one after the other keeps the order -/
theorem Tidy.foldl_add (h : s.Tidy) (texts : List String) : (texts.foldl Scene.add s).Tidy := by
  induction texts generalizing s with
  | nil => exact h
  | cons text texts ih => exact ih (h.add text)

/-- and faith. -/
theorem Faithful.foldl_add (h : s.Faithful ledger) (texts : List String) :
    (texts.foldl Scene.add s).Faithful (ledger.addAll s.nextId texts) := by
  induction texts generalizing s ledger with
  | nil => exact h
  | cons text texts ih =>
    rw [Ledger.addAll, ← nextId_add s text]
    exact ih (h.add text)

/-! ### The coming of edits -/

/-- A text that is read after edits have come is the old one, or that of the edit. -/
theorem edited_eq_some {edit old : Option String} {new : String} (h : edited edit old = some new) :
    (edit = none ∧ old = some new) ∨ (edit = some new ∧ ¬ Blank new ∧ ∃ text, old = some text) := by
  cases edit with
  | none => exact .inl ⟨rfl, h⟩
  | some text =>
    rw [edited] at h
    split at h
    · cases h
    · next hblank =>
      obtain ⟨other, hother, rfl⟩ := Option.map_eq_some_iff.mp h
      exact .inr ⟨rfl, hblank, other, hother⟩

/-- The coming of edits keeps the order. -/
theorem Tidy.applyEdits (h : s.Tidy) (now : Nat) : (s.applyEdits now).1.Tidy := by
  have hcame := applyEdits_edited s now
  refine { text_lt := fun id text htext => ?_, waiting_iff := fun id => ?_,
           waiting_none := fun id htext => ?_ }
  · rw [hcame.nextId]
    rw [hcame.text] at htext
    split at htext
    · rcases edited_eq_some htext with ⟨-, hold⟩ | ⟨-, -, old, hold⟩
      · exact h.text_lt id text hold
      · exact h.text_lt id old hold
    · exact h.text_lt id text htext
  · -- what has come waits no more, neither its moment nor its text
    rw [deadline_applyEdits, hcame.pendingText]
    by_cases hdue : id ∈ s.edits.due now
    · rw [if_pos hdue, if_pos hdue]
      exact ⟨fun _ => rfl, fun _ => rfl⟩
    · rw [if_neg hdue, if_neg hdue]
      exact h.waiting_iff id
  · rw [hcame.pendingText]
    rw [hcame.text] at htext
    split
    · rfl
    · next hdue =>
      rw [if_neg hdue] at htext
      exact h.waiting_none id htext

/-- What is due brings a text to an equation. -/
theorem Tidy.exists_of_due (h : s.Tidy) {id now : Nat} (hdue : id ∈ s.edits.due now) :
    ∃ new old, s.pendingText.get? id = some new ∧ s.text? id = some old := by
  obtain ⟨moment, hmoment, -⟩ := Debouncer.mem_due.mp hdue
  -- a text waits, since its moment does, and an equation, since its text does
  have hnew : s.pendingText.get? id ≠ none := by
    intro hnone
    rw [(h.waiting_iff id).mpr hnone] at hmoment
    cases hmoment
  have hold : s.text? id ≠ none := fun hnone => hnew (h.waiting_none id hnone)
  obtain ⟨new, hnew⟩ := Option.ne_none_iff_exists'.mp hnew
  obtain ⟨old, hold⟩ := Option.ne_none_iff_exists'.mp hold
  exact ⟨new, old, hnew, hold⟩

/-- **Faith is kept when edits come exactly if they bring what was handed last.** -/
theorem faithful_applyEdits_iff (ht : s.Tidy) (h : s.Faithful ledger) (now : Nat) :
    (s.applyEdits now).1.Faithful ledger ↔ s.BringsLast ledger now := by
  have hcame := applyEdits_edited s now
  have hwaits := deadline_applyEdits s now
  constructor
  · -- an edit that has come is what its equation reads, and it waits no more
    intro hafter id hdue text hnew hblank
    obtain ⟨new, old, hnew', hold⟩ := ht.exists_of_due hdue
    obtain rfl : text = new := Option.some.inj (hnew.symm.trans hnew')
    have htext : (s.applyEdits now).1.text? id = some text := by
      have hcame : _ = edited (s.pendingText.get? id) (s.text? id) :=
        (hcame.text id).trans (if_pos hdue)
      rw [hcame, hnew, hold, edited, if_neg hblank]
      rfl
    have hrests : (s.applyEdits now).1.edits.deadlines.get? id = none :=
      (hwaits id).trans (if_pos hdue)
    exact hafter id text htext (isPending_eq_false_iff.mpr hrests)
  · -- an equation that does not wait afterwards waited for one of these or for none
    intro hbrings id text htext hpending
    rw [isPending_eq_false_iff, hwaits] at hpending
    rw [hcame.text] at htext
    by_cases hdue : id ∈ s.edits.due now
    · rw [if_pos hdue] at htext
      obtain ⟨new, old, hnew, -⟩ := ht.exists_of_due hdue
      rcases edited_eq_some htext with ⟨hnone, -⟩ | ⟨hsome, hblank, -⟩
      · rw [show s.pendingText.get? id = none from hnone] at hnew
        cases hnew
      · exact hbrings id hdue text hsome hblank
    · rw [if_neg hdue] at htext hpending
      exact h id text htext (isPending_eq_false_iff.mpr hpending)

/-! ### Every action -/

/-- Every action keeps the order. -/
theorem Tidy.act (h : s.Tidy) (a : Action) : (s.act a).Tidy := by
  by_cases ha : a.Writes
  · -- the actions that write are taken one by one; all others leave the texts alone
    cases a with
    | add text => exact h.add text
    | addColored text color =>
      obtain ⟨row, -, hsame⟩ := addColored_sameTexts s text color
      exact (h.put row (Nat.lt_succ_self _) (Nat.le_succ _)).same hsame
    | remove id => exact after_of h fun s' hs => (h.drop id).same (remove_sameTexts hs)
    | setText id text =>
      refine after_of h fun s' hs => ?_
      rcases setText_cases hs with ⟨-, hremove⟩ | ⟨-, row, -, hsame⟩
      · exact (h.drop id).same (remove_sameTexts hremove)
      · -- the equation was there, so it already had its number
        have hrow : s.text? id ≠ none := fun hnone =>
          row_ne_none_of_setText hs (text?_eq_none.mp hnone)
        obtain ⟨old, hold⟩ := Option.ne_none_iff_exists'.mp hrow
        exact (h.put row (h.text_lt id old hold) (Nat.le_refl _)).same hsame
    | editText id text now =>
      refine after_of h fun s' hs => ?_
      rw [editText_sameTexts hs]
      exact h.wait (row_ne_none_of_editText hs) text now
    | clear => exact Tidy.clear s
    | loadSheet sheet => exact (Tidy.clear s).foldl_add (Sheet.read sheet)
    | applyEdits now => exact h.applyEdits now
    | _ => exact ha.elim
  · exact h.same (SameTexts.act s ha)

/-- **Only the coming of edits can break faith.** -/
theorem Faithful.act (h : s.Faithful ledger) (ht : s.Tidy) (a : Action)
    (ha : ∀ now, a = .applyEdits now → s.BringsLast ledger now) :
    (s.act a).Faithful (s.hand ledger a) := by
  cases a with
  | add text => exact h.add text
  | addColored text color =>
    obtain ⟨row, hraw, hsame⟩ := addColored_sameTexts s text color
    exact (h.put s.nextId (s.nextId + 1) hraw).same hsame
  | remove id =>
    show (s.after (s.remove id)).Faithful ledger
    cases hs : s.remove id with
    | error e => exact h
    | ok s' =>
      -- nothing is handed to anyone, which is to hand what was handed already
      have hdrop := h.drop id (ledger id)
      rw [Function.update_eq_self] at hdrop
      exact hdrop.same (remove_sameTexts hs)
  | setText id text =>
    rw [Scene.act, hand]
    cases hs : s.setText id text with
    | error e => exact h.update_of_none (setText_eq_error hs) (some text)
    | ok s' =>
      rcases setText_cases hs with ⟨-, hremove⟩ | ⟨-, row, hraw, hsame⟩
      · exact (h.drop id (some text)).same (remove_sameTexts hremove)
      · exact (h.put id s.nextId hraw).same hsame
  | editText id text now =>
    rw [Scene.act, hand]
    cases hs : s.editText id text now with
    | error e => exact h.update_of_none (editText_eq_error hs) (some text)
    | ok s' =>
      rw [editText_sameTexts hs]
      exact h.wait id text now
  | clear => exact Faithful.clear s ledger
  | loadSheet sheet => exact (Faithful.clear s ledger).foldl_add (Sheet.read sheet)
  | applyEdits now => exact (faithful_applyEdits_iff ht h now).mpr (ha now rfl)
  | _ => exact h.same (SameTexts.act s id)

/-! ### Runs -/

/-- A new scene is in order. -/
theorem Tidy.start (settings : Settings Float) (width height : Float) :
    (Scene.new settings width height).Tidy where
  text_lt id text htext := by cases htext
  waiting_iff id := ⟨fun _ => rfl, fun _ => rfl⟩
  waiting_none id _ := rfl

/-- **Faith is kept by an action exactly if the edits that come in it bring what was handed
last.** -/
theorem Faithful.act_iff (h : s.Faithful ledger) (ht : s.Tidy) (a : Action) :
    (s.act a).Faithful (s.hand ledger a) ↔
      ∀ now, a = .applyEdits now → s.BringsLast ledger now := by
  refine ⟨?_, h.act ht a⟩
  rintro hafter now rfl
  exact (faithful_applyEdits_iff ht h now).mp hafter

/-- A row of actions is faithful throughout exactly if the edits that come in it bring
what was handed last. -/
theorem Faithful.run_iff (h : s.Faithful ledger) (ht : s.Tidy) (actions : List Action) :
    (∀ before, before <+: actions → (s.run before).Faithful (s.handed ledger before)) ↔
      ∀ before now, before ++ [.applyEdits now] <+: actions →
        (s.run before).BringsLast (s.handed ledger before) now := by
  -- the first action is taken from both sides, with `Faithful.act_iff` for it alone
  induction actions generalizing s ledger with
  | nil =>
    refine ⟨fun _ before now hbefore => ?_, fun _ before hbefore => ?_⟩
    · -- nothing is done, so nothing comes
      have hnil : before ++ [.applyEdits now] = [] := List.prefix_nil.mp hbefore
      exact absurd hnil (List.append_ne_nil_of_right_ne_nil before (List.cons_ne_nil _ _))
    · rw [List.prefix_nil.mp hbefore]
      exact h
  | cons a actions ih =>
    constructor
    · -- the first action keeps faith, so its edits bring what is newest, and so do the later ones
      intro hall before now hbefore
      have hact : (s.act a).Faithful (s.hand ledger a) :=
        hall [a] (List.cons_prefix_cons.mpr ⟨rfl, List.nil_prefix⟩)
      cases before with
      | nil =>
        have ha : Action.applyEdits now = a := (List.cons_prefix_cons.mp hbefore).1
        exact (h.act_iff ht a).mp hact now ha.symm
      | cons b before =>
        obtain ⟨rfl, hrest⟩ := List.cons_prefix_cons.mp hbefore
        refine (ih hact (ht.act b)).mp (fun first hfirst => ?_) before now hrest
        exact hall (b :: first) (List.cons_prefix_cons.mpr ⟨rfl, hfirst⟩)
    · -- the first action brings what is newest, so it keeps faith, and the others go on from there
      intro hall before hbefore
      cases before with
      | nil => exact h
      | cons b before =>
        obtain ⟨rfl, hrest⟩ := List.cons_prefix_cons.mp hbefore
        have hact : (s.act b).Faithful (s.hand ledger b) := by
          refine (h.act_iff ht b).mpr fun now hb => ?_
          exact hall [] now (List.cons_prefix_cons.mpr ⟨hb.symm, List.nil_prefix⟩)
        refine (ih hact (ht.act b)).mpr (fun first now hfirst => ?_) before hrest
        exact hall (b :: first) now (List.cons_prefix_cons.mpr ⟨rfl, hfirst⟩)

/-- Nothing was handed to anyone. -/
def Ledger.nothing : Ledger := fun _ => none

/-- No equation has been handed anything yet. -/
theorem Faithful.start (settings : Settings Float) (width height : Float) :
    (Scene.new settings width height).Faithful .nothing := by
  intro id text htext
  cases htext

/-- **An equation without a waiting edit reads what it was handed last, all through a run,
exactly if no edit comes that is older.** Every edit that comes in the run has to bring
what was handed last to its equation by then, or be blank. -/
theorem faithful_iff (settings : Settings Float) (width height : Float) (actions : List Action) :
    let s := Scene.new settings width height
    (∀ before, before <+: actions → (s.run before).Faithful (s.handed .nothing before)) ↔
      ∀ before now, before ++ [.applyEdits now] <+: actions →
        (s.run before).BringsLast (s.handed .nothing before) now :=
  (Faithful.start settings width height).run_iff (.start settings width height) actions

/-! ### Where faith is kept -/

/-- Every text that waits is what was handed last to its equation. -/
def Newest (s : Scene) (ledger : Ledger) : Prop :=
  ∀ id text, s.pendingText.get? id = some text → ledger id = some text

/-- Where nothing older waits, what comes is what was handed last. -/
theorem Newest.bringsLast (h : s.Newest ledger) (now : Nat) : s.BringsLast ledger now :=
  fun id _ text hwaiting _ => h id text hwaiting

/-- Where nothing waits, anything may be handed. -/
theorem Newest.update (h : s.Newest ledger) {id : Nat} (hid : s.pendingText.get? id = none)
    (hand : Option String) : s.Newest (Function.update ledger id hand) := by
  intro i text hwaiting
  have hi : i ≠ id := by
    rintro rfl
    rw [hid] at hwaiting
    cases hwaiting
  rw [Function.update_of_ne hi]
  exact h i text hwaiting

/-- Fewer texts wait. -/
theorem Newest.mono (h : s.Newest ledger)
    (hsub : ∀ id text, s'.pendingText.get? id = some text → s.pendingText.get? id = some text) :
    s'.Newest ledger :=
  fun id text hwaiting => h id text (hsub id text hwaiting)

/-- What waits is the newest as long as no text changes. -/
theorem Newest.same (h : s.Newest ledger) (hs : SameTexts s s') : s'.Newest ledger :=
  h.mono fun _ _ hwaiting => hs.pendingText ▸ hwaiting

/-- Nothing waits for an equation that is still to come. -/
theorem Tidy.not_waiting_nextId (h : s.Tidy) : s.pendingText.get? s.nextId = none := by
  refine h.waiting_none s.nextId ?_
  rw [Option.eq_none_iff_forall_ne_some]
  exact fun text htext => Nat.lt_irrefl _ (h.text_lt s.nextId text htext)

/-- An equation that is added has no text waiting. -/
theorem Newest.add (h : s.Newest ledger) (ht : s.Tidy) (text : String) :
    (s.add text).Newest (Function.update ledger s.nextId (some text)) := by
  obtain ⟨row, -, hsame⟩ := add_sameTexts s text
  exact (h.update ht.not_waiting_nextId (some text)).mono
    fun id text hwaiting => hsame.pendingText ▸ hwaiting

/-- So it is for one after the other. -/
theorem Newest.foldl_add (h : s.Newest ledger) (ht : s.Tidy) (texts : List String) :
    (texts.foldl Scene.add s).Newest (ledger.addAll s.nextId texts) := by
  induction texts generalizing s ledger with
  | nil => exact h
  | cons text texts ih =>
    rw [Ledger.addAll, ← nextId_add s text]
    exact ih (h.add ht text) (ht.add text)

/-- **Only a text that is set while another one waits** leaves an older one waiting. -/
theorem Newest.act (h : s.Newest ledger) (ht : s.Tidy) (a : Action)
    (ha : ∀ id text, a = .setText id text → s.edits.isPending id = false) :
    (s.act a).Newest (s.hand ledger a) := by
  -- no text waits for an equation that is not there
  have hrefused : ∀ id, s.rows.get? id = none → s.pendingText.get? id = none :=
    fun id hid => ht.waiting_none id (text?_eq_none.mpr hid)
  cases a with
  | add text => exact h.add ht text
  | addColored text color =>
    obtain ⟨row, -, hsame⟩ := addColored_sameTexts s text color
    exact (h.update ht.not_waiting_nextId (some text)).mono
      fun id text hwaiting => hsame.pendingText ▸ hwaiting
  | remove id =>
    refine after_of (I := fun t => t.Newest ledger) h fun s' hs => h.mono fun i text hwaiting => ?_
    rw [(remove_sameTexts hs).pendingText] at hwaiting
    exact Keyed.get?_of_get?_erase hwaiting
  | setText id text =>
    -- nothing waits for the equation, so the new text overtakes none
    have hid : s.pendingText.get? id = none :=
      (ht.waiting_iff id).mp (isPending_eq_false_iff.mp (ha id text rfl))
    have hnew : s.Newest (Function.update ledger id (some text)) := h.update hid (some text)
    refine after_of (I := fun t => t.Newest _) hnew fun s' hs => hnew.mono fun i old hwaiting => ?_
    rcases setText_cases hs with ⟨-, hremove⟩ | ⟨-, row, -, hsame⟩
    · rw [(remove_sameTexts hremove).pendingText] at hwaiting
      exact Keyed.get?_of_get?_erase hwaiting
    · exact hsame.pendingText ▸ hwaiting
  | editText id text now =>
    rw [Scene.act, hand]
    cases hs : s.editText id text now with
    | error e => exact h.update (hrefused id (editText_eq_error hs)) (some text)
    | ok s' =>
      rw [editText_sameTexts hs]
      intro i waiting hwaiting
      have hwaiting : (s.pendingText.insert id text).get? i = some waiting := hwaiting
      by_cases hi : i = id
      · -- the text that waits is the one just typed
        subst hi
        rw [Keyed.get?_insert_self] at hwaiting
        rw [Function.update_self, hwaiting]
      · rw [Keyed.get?_insert_of_ne s.pendingText text hi] at hwaiting
        rw [Function.update_of_ne hi]
        exact h i waiting hwaiting
  | clear => exact fun _ _ hwaiting => by cases hwaiting
  | loadSheet sheet =>
    have hclear : s.clear.Newest ledger := fun _ _ hwaiting => by cases hwaiting
    exact hclear.foldl_add (.clear s) (Sheet.read sheet)
  | applyEdits now =>
    refine h.mono fun id text hwaiting => ?_
    rw [Scene.act, (applyEdits_edited s now).pendingText] at hwaiting
    split at hwaiting
    · cases hwaiting
    · exact hwaiting
  | _ => exact h.same (SameTexts.act s id)

/-- So it is for a run that sets no text over one that waits. -/
theorem Newest.run (h : s.Newest ledger) (ht : s.Tidy) {actions : List Action}
    (hall : ∀ before id text, before ++ [.setText id text] <+: actions →
      (s.run before).edits.isPending id = false) (before : List Action)
    (hbefore : before <+: actions) : (s.run before).Newest (s.handed ledger before) := by
  induction before generalizing s ledger actions with
  | nil => exact h
  | cons a before ih =>
    obtain ⟨rest, rfl⟩ := hbefore
    have hact : (s.act a).Newest (s.hand ledger a) := by
      refine h.act ht a fun id text ha => hall [] id text ?_
      rw [ha]
      exact List.cons_prefix_cons.mpr ⟨rfl, List.nil_prefix⟩
    refine @ih (s.act a) (s.hand ledger a) hact (ht.act a) (before ++ rest)
      (fun first id text hfirst => ?_) (List.prefix_append before rest)
    exact hall (a :: first) id text (List.cons_prefix_cons.mpr ⟨rfl, hfirst⟩)

/-- **A run is faithful that sets no text while another one waits for the equation.** -/
theorem faithful_of_not_overtaking (settings : Settings Float) (width height : Float)
    {actions : List Action}
    (hall : ∀ before id text, before ++ [.setText id text] <+: actions →
      ((Scene.new settings width height).run before).edits.isPending id = false) :
    ∀ before, before <+: actions → ((Scene.new settings width height).run before).Faithful
      ((Scene.new settings width height).handed .nothing before) := by
  have htidy : (Scene.new settings width height).Tidy := .start settings width height
  refine ((Faithful.start settings width height).run_iff htidy actions).mpr ?_
  intro before now hbefore
  have hnone : (Scene.new settings width height).Newest .nothing :=
    fun _ _ hwaiting => by cases hwaiting
  have hprefix : before <+: actions := (List.prefix_append before _).trans hbefore
  exact (hnone.run htidy hall before hprefix).bringsLast now

/-! ### Where faith is lost -/

/-- A text is typed, another one is set at once, and then the typed one comes. -/
def overtaking (id : Nat) (typed set : String) (now later : Nat) : List Action :=
  [.editText id typed now, .setText id set, .applyEdits later]

/-- **Setting a text does not stop an older one from coming.** In every scene, a text that
is set while another one waits is overwritten by it. -/
theorem not_faithful_overtaking {id : Nat} (hrow : s.rows.get? id ≠ none) {typed set : String}
    (htyped : ¬ Blank typed) (hset : ¬ Blank set) (hne : set ≠ typed) {now later : Nat}
    (hlater : now + s.edits.delay ≤ later) (ledger : Ledger) :
    ¬ (s.run (overtaking id typed set now later)).Faithful
      (s.handed ledger (overtaking id typed set now later)) := by
  intro hend
  cases hedit : s.editText id typed now with
  | error e => exact hrow (editText_eq_error hedit)
  | ok s₁ =>
    have hwaits := editText_sameTexts hedit
    cases hnew : s₁.setText id set with
    | error e =>
      have hnone : s₁.rows.get? id = none := setText_eq_error hnew
      rw [hwaits] at hnone
      exact hrow hnone
    | ok s₂ =>
      have hrun : s.run (overtaking id typed set now later) = (s₂.applyEdits later).1 := by
        simp only [overtaking, run_cons, run_nil, act, hedit, after, hnew]
      obtain ⟨row, hraw, hsame⟩ := ((setText_cases hnew).resolve_left fun h => hset h.1).2
      -- the text that was typed still waits, and its moment has come
      have hwaiting : s₂.pendingText.get? id = some typed := by
        rw [hsame.pendingText, hwaits]
        exact Keyed.get?_insert_self s.pendingText id typed
      have hdue : id ∈ s₂.edits.due later := by
        rw [hsame.edits, hwaits]
        exact Debouncer.mem_due.mpr ⟨_, Debouncer.get?_schedule_self, hlater⟩
      have hread : s₂.text? id = some set := by
        rw [hsame.text, ← hraw]
        exact (text?_insert s₁ id row s₁.nextId id).trans (if_pos rfl)
      have htext : (s₂.applyEdits later).1.text? id = some typed := by
        have hcame := ((applyEdits_edited s₂ later).text id).trans (if_pos hdue)
        rw [hcame]
        show edited (s₂.pendingText.get? id) (s₂.text? id) = some typed
        rw [hwaiting, hread, edited, if_neg htyped]
        rfl
      have hrests : (s₂.applyEdits later).1.edits.isPending id = false := by
        rw [isPending_eq_false_iff, deadline_applyEdits, if_pos hdue]
      have hlast : s.handed ledger (overtaking id typed set now later) id = some set := by
        show Function.update (Function.update ledger id (some typed)) id (some set) id = some set
        rw [Function.update_self]
      rw [hrun] at hend
      have htold : some set = some typed := hlast.symm.trans (hend id typed htext hrests)
      exact hne (Option.some.inj htold)

/-- A text is typed for the first equation, another one is set at once, and the typed one
overwrites it. -/
theorem overtaken_not_faithful :
    ¬ ∀ before, before <+: [.add "y = 1", .editText 0 "y = 2" 0, .setText 0 "y = 3",
        .applyEdits 300] →
      ((Scene.new .standard 800.0 600.0).run before).Faithful
        ((Scene.new .standard 800.0 600.0).handed .nothing before) := by
  intro hall
  let s := Scene.new .standard 800.0 600.0
  obtain ⟨row, hraw, hadded⟩ := add_sameTexts s "y = 1"
  have hrow : (s.add "y = 1").rows.get? 0 ≠ none := by
    intro hnone
    have htext : (s.add "y = 1").text? 0 = some row.equation.raw :=
      (hadded.text 0).trans ((text?_insert s s.nextId row (s.nextId + 1) 0).trans (if_pos rfl))
    rw [text?_eq_none.mpr hnone] at htext
    cases htext
  have hdelay : 0 + (s.add "y = 1").edits.delay ≤ 300 := by
    rw [hadded.edits]
    exact Nat.le_refl 300
  have htyped : ¬ Blank "y = 2" := by decide
  have hset : ¬ Blank "y = 3" := by decide
  have hne : "y = 3" ≠ "y = 2" := by decide
  have hend := hall _ (List.prefix_refl _)
  rw [run_cons] at hend
  exact not_faithful_overtaking hrow htyped hset hne hdelay (s.hand .nothing (.add "y = 1")) hend

end CurvePlot.Scene
