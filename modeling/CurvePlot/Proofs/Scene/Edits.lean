import CurvePlot.Proofs.Debouncer
import CurvePlot.Proofs.Scene.Texts
/-!
# The coming of edits

A poll sets the texts whose typing has rested, one equation after the other. What this
does to the texts and to the edits that wait is `Edited`: each equation whose turn it
is gets the text that waited for it, and nothing waits for it any more. A blank text
removes the equation.
-/

namespace CurvePlot.Scene

/-- The text of an equation when an edit has come, if one waited. -/
def edited (edit text : Option String) : Option String :=
  match edit with
  | none => text
  | some new => if Blank new then none else text.map fun _ => new

/-- **The edits of some equations have come,** and that is all that happened to texts. -/
structure Edited (ids : List Nat) (s s' : Scene) : Prop where
  /-- The equations have the texts that waited for them. -/
  text : ∀ id, s'.text? id =
    if id ∈ ids then edited (s.pendingText.get? id) (s.text? id) else s.text? id
  /-- No text waits for them any more. -/
  pendingText : ∀ id, s'.pendingText.get? id =
    if id ∈ ids then none else s.pendingText.get? id
  /-- The others wait as before. -/
  deadline : ∀ id, id ∉ ids → s'.edits.deadlines.get? id = s.edits.deadlines.get? id
  /-- No wait begins. -/
  deadline_none : ∀ id, s.edits.deadlines.get? id = none → s'.edits.deadlines.get? id = none
  nextId : s'.nextId = s.nextId

namespace Edited

variable {s s' s'' : Scene} {id : Nat} {ids : List Nat}

theorem nil (s : Scene) : Edited [] s s where
  text _ := rfl
  pendingText _ := rfl
  deadline _ _ := rfl
  deadline_none _ h := h
  nextId := rfl

/-- The edits of several equations come one after the other. -/
theorem cons (h : Edited [id] s s') (h' : Edited ids s' s'') : Edited (id :: ids) s s'' where
  text i := by
    rw [h'.text, h.text, h.pendingText]
    by_cases hi : i = id
    · subst hi
      simp [edited]
    · simp [hi]
  pendingText i := by
    rw [h'.pendingText, h.pendingText]
    by_cases hi : i = id
    · subst hi
      simp
    · simp [hi]
  deadline i hi := by
    have hne : i ∉ [id] := fun hid => hi (List.mem_cons.mpr (.inl (List.mem_singleton.mp hid)))
    rw [h'.deadline i fun hids => hi (List.mem_cons_of_mem _ hids), h.deadline i hne]
  deadline_none i hi := h'.deadline_none i (h.deadline_none i hi)
  nextId := h'.nextId.trans h.nextId

end Edited

variable {s s' : Scene} {id : Nat} {text : String}

theorem text?_eq_none : s.text? id = none ↔ s.rows.get? id = none := by
  rw [text?, Option.map_eq_none_iff]

/-- Setting a text is the coming of an edit, except that an edit which waits for the
equation goes on waiting. -/
theorem text?_setText (h : s.setText id text = .ok s') (i : Nat) :
    s'.text? i = if i = id then edited (some text) (s.text? id) else s.text? i := by
  obtain ⟨old, hold⟩ := Option.ne_none_iff_exists'.mp (row_ne_none_of_setText h)
  rcases setText_cases h with ⟨hblank, hremove⟩ | ⟨hblank, row, hraw, hsame⟩
  · rw [(remove_sameTexts hremove).text, text?, text?]
    by_cases hi : i = id
    · subst hi
      simp [edited, hblank]
    · rw [Keyed.get?_erase_of_ne s.rows hi, if_neg hi]
      rfl
  · rw [hsame.text, text?, text?, text?]
    by_cases hi : i = id
    · subst hi
      simp [edited, hblank, hold, hraw]
    · rw [Keyed.get?_insert_of_ne s.rows row hi, if_neg hi]

/-- The edit of one equation comes, said without lists. -/
theorem Edited.single (htext : ∀ i, s'.text? i =
      if i = id then edited (s.pendingText.get? id) (s.text? id) else s.text? i)
    (hpending : ∀ i, s'.pendingText.get? i = if i = id then none else s.pendingText.get? i)
    (hdeadline : s'.edits = s.edits ∨ s'.edits = s.edits.cancel id)
    (hnext : s'.nextId = s.nextId) : Edited [id] s s' where
  text i := by
    rw [htext]
    by_cases hi : i = id
    · subst hi
      simp
    · simp [hi]
  pendingText i := by
    rw [hpending]
    simp
  deadline i hi := by
    rcases hdeadline with heq | heq
    · rw [heq]
    · rw [heq]
      exact Debouncer.get?_cancel_of_ne fun hid => hi (List.mem_singleton.mpr hid)
  deadline_none i hi := by
    rcases hdeadline with heq | heq
    · rw [heq, hi]
    · rw [heq]
      by_cases hid : i = id
      · subst hid
        exact Debouncer.get?_cancel_self
      · exact (Debouncer.get?_cancel_of_ne hid).trans hi
  nextId := hnext

/-- The scene when the text that waited for an equation was taken out. -/
def takeText (s : Scene) (id : Nat) : Scene :=
  { s with pendingText := s.pendingText.erase id }

@[simp]
theorem text?_takeText (s : Scene) (id i : Nat) : (s.takeText id).text? i = s.text? i := rfl

theorem pendingText_takeText (s : Scene) (id i : Nat) :
    (s.takeText id).pendingText.get? i = if i = id then none else s.pendingText.get? i := by
  by_cases hi : i = id
  · subst hi
    rw [if_pos rfl]
    exact Keyed.get?_erase_self _ _
  · rw [if_neg hi]
    exact Keyed.get?_erase_of_ne _ hi

/-- No text waited, so nothing happens. -/
theorem edited_of_none (h : s.pendingText.get? id = none) : Edited [id] s s := by
  refine .single (fun i => ?_) (fun i => ?_) (.inl rfl) rfl
  · split
    · next hi => rw [hi, h]; rfl
    · rfl
  · split
    · next hi => rw [hi, h]
    · rfl

/-- The text that waited is refused only when there is no such equation, and then there
is nothing to write. -/
theorem edited_of_error {e : SceneError} (h : s.pendingText.get? id = some text)
    (hset : (s.takeText id).setText id text = .error e) : Edited [id] s (s.takeText id) := by
  have hnone : (s.takeText id).text? id = none := text?_eq_none.mpr (setText_eq_error hset)
  rw [text?_takeText] at hnone
  refine .single (fun i => ?_) (pendingText_takeText s id) (.inl rfl) rfl
  split
  · next hi =>
    rw [hi, text?_takeText, h, hnone]
    simp [edited]
  · rfl

/-- The text that waited is taken. -/
theorem edited_of_ok (h : s.pendingText.get? id = some text)
    (hset : (s.takeText id).setText id text = .ok s') : Edited [id] s s' := by
  have htext : ∀ i, s'.text? i =
      if i = id then edited (s.pendingText.get? id) (s.text? id) else s.text? i := by
    intro i
    rw [text?_setText hset i, h]
    rfl
  have hpending := pendingText_takeText s id
  rcases setText_cases hset with ⟨-, hremove⟩ | ⟨-, row, -, hwrite⟩
  · -- a removal also forgets that an edit waits, which is a second erasure here
    have hremoved := remove_sameTexts hremove
    refine .single htext (fun i => ?_) (.inr hremoved.edits) hremoved.nextId
    rw [hremoved.pendingText, ← hpending i]
    by_cases hi : i = id
    · rw [hi, Keyed.get?_erase_self, hpending, if_pos rfl]
    · exact Keyed.get?_erase_of_ne _ hi
  · refine .single htext (fun i => ?_) (.inl hwrite.edits) hwrite.nextId
    rw [hwrite.pendingText]
    exact hpending i

/-- **The edit of one equation comes.** -/
theorem edited_applyEdit (state : Scene × Bool) (id : Nat) :
    Edited [id] state.1 (applyEdit state id).1 := by
  unfold applyEdit
  cases hpending : state.1.pendingText.get? id with
  | none => exact edited_of_none hpending
  | some text =>
    dsimp only
    cases hset : setText { state.1 with pendingText := state.1.pendingText.erase id } id text with
    | error e => exact edited_of_error hpending hset
    | ok s' => exact edited_of_ok hpending hset

theorem edited_foldl_applyEdit (state : Scene × Bool) (ids : List Nat) :
    Edited ids state.1 (ids.foldl applyEdit state).1 := by
  induction ids generalizing state with
  | nil => exact .nil state.1
  | cons id ids ih => exact (edited_applyEdit state id).cons (ih (applyEdit state id))

/-- **The edits whose typing has rested come,** and do not wait any more. -/
theorem applyEdits_edited (s : Scene) (now : Nat) :
    Edited (s.edits.due now) { s with edits := s.edits.deliver now } (s.applyEdits now).1 :=
  edited_foldl_applyEdit ({ s with edits := s.edits.deliver now }, false) (s.edits.due now)

/-- After its edit has come, nothing waits for an equation; the others wait as before. -/
theorem deadline_applyEdits (s : Scene) (now id : Nat) :
    (s.applyEdits now).1.edits.deadlines.get? id =
      if id ∈ s.edits.due now then none else s.edits.deadlines.get? id := by
  have hcame := applyEdits_edited s now
  have hdeliver := Debouncer.get?_deliver s.edits now id
  split
  · next hdue =>
    rw [if_pos hdue] at hdeliver
    exact hcame.deadline_none id hdeliver
  · next hdue =>
    rw [if_neg hdue] at hdeliver
    exact (hcame.deadline id hdue).trans hdeliver

end CurvePlot.Scene
