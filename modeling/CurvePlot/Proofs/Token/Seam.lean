import CurvePlot.Proofs.Expr.Parentheses
import CurvePlot.Proofs.Text.Flatten
/-!
# Where texts meet

Texts that are scanned may be put together where no token can reach over: at an `&&`
(`Scans.append_and`), and at blanks, which may also be left out at either end
(`Scans.of_surrounded`). A single `&` is no token, so that the first `&` of the two belongs to
nothing before it.

What is scanned is written in few characters (`Scans.isWritten`), and each token has its place in
the text, with as many parentheses in front of it as among the tokens before
(`Scans.exists_place`).
-/

namespace CurvePlot.Token

variable {text rest more : List Char} {c d : Char} {ts u v : List Token} {x : Token} {count : Nat}

/-- A token is no longer than its text. -/
theorem pred_le_of_first? (h : first? (c :: rest) = some (x, count)) : count - 1 ≤ rest.length := by
  obtain ⟨run, behind, htext, rfl, -, -⟩ := spelling_of_first? h
  have hlength := congrArg List.length htext
  rw [List.length_cons, List.length_append] at hlength
  omega

/-! ### Characters -/

/-- The characters that tokens are written in, and those between them. -/
def IsWritten (c : Char) : Prop :=
  isSkipped c = true ∨ isNumeric c = true ∨ c.isAlpha = true ∨ ∃ s ∈ symbols, c ∈ s.1

theorem Spelling.isWritten {run : List Char} (h : Spelling run x) (hc : c ∈ run) : IsWritten c := by
  cases h with
  | digits v hrun => exact .inr (.inl (hrun c hc))
  | letters hrun => exact .inr (.inr (.inl (hrun c hc)))
  | symbol hmem => exact .inr (.inr (.inr ⟨_, hmem, hc⟩))

/-- What stands behind the first token of a text. -/
theorem exists_of_first? (h : first? (c :: rest) = some (x, count)) :
    ∃ run, c :: rest = run ++ rest.drop (count - 1) ∧ Spelling run x := by
  obtain ⟨run, behind, htext, rfl, hne, hrun⟩ := spelling_of_first? h
  refine ⟨run, ?_, hrun⟩
  cases run with
  | nil => exact absurd rfl hne
  | cons d run =>
    obtain ⟨rfl, rfl⟩ := List.cons.inj htext
    rw [List.append_eq, List.length_cons, Nat.add_sub_cancel, List.drop_left, List.cons_append]

theorem Scans.isWritten (h : Scans text ts) : ∀ c ∈ text, IsWritten c := by
  induction h with
  | nil => exact nofun
  | skip hc _ ih => exact List.forall_mem_cons.mpr ⟨.inl hc, ih⟩
  | @token c rest x count ts _ hfirst _ ih =>
    obtain ⟨run, htext, hrun⟩ := exists_of_first? hfirst
    rw [htext]
    exact List.forall_mem_append.mpr ⟨fun d hd => hrun.isWritten hd, ih⟩

/-- **Each token has its place in the text.** -/
theorem Scans.exists_place (h : Scans text (u ++ x :: v)) : ∃ before run after,
    text = before ++ run ++ after ∧ Spelling run x ∧
      before.filterMap Parenthesis.ofChar? = brackets u := by
  -- along the scan, up to the token in question
  generalize hts : u ++ x :: v = ts at h
  induction h generalizing u with
  | nil => simp at hts
  | @skip c rest ts hc hrest ih =>
    obtain ⟨before, run, after, rfl, hrun, hbrackets⟩ := ih hts
    refine ⟨c :: before, run, after, rfl, hrun, ?_⟩
    have hblank : Scans [c] [] := .skip hc .nil
    rw [List.filterMap_cons_none (List.filterMap_eq_nil_iff.mp hblank.brackets_eq c
      (List.mem_singleton_self c)), hbrackets]
  | @token c rest y count ts _ hfirst _ ih =>
    obtain ⟨run, htext, hrun⟩ := exists_of_first? hfirst
    cases u with
    | nil =>
      obtain ⟨rfl, rfl⟩ := List.cons.inj hts
      exact ⟨[], run, rest.drop (count - 1), htext, hrun, rfl⟩
    | cons z u =>
      obtain ⟨rfl, hrest⟩ := List.cons.inj hts
      obtain ⟨before, run', after, hbehind, hrun', hbrackets⟩ := ih hrest
      refine ⟨run ++ before, run', after, ?_, hrun', ?_⟩
      · rw [htext, hbehind, List.append_assoc run, List.append_assoc run]
      · rw [List.filterMap_append, hrun.brackets_eq, hbrackets]
        exact List.filterMap_append.symm

/-! ### Blanks at the ends -/

/-- A token that stands before a blank ends there. -/
theorem separates_of_isBlank (h : Text.isBlank d = true) : Separates d := by
  have hblanks : Text.blanks.all fun d => !isNumeric d && !d.isAlpha &&
      symbols.all fun s => !s.1.tail.contains d := by decide +kernel
  have hfacts := List.all_eq_true.mp hblanks d (Text.mem_blanks h)
  simp only [Bool.and_eq_true, Bool.not_eq_true', List.all_eq_true, List.contains_eq_mem,
    decide_eq_false_iff_not] at hfacts
  exact ⟨hfacts.1.1, hfacts.1.2, hfacts.2⟩

theorem blanks_not_written : ∀ d ∈ Text.blanks, ∀ s ∈ symbols, d ∉ s.1 := by
  have hblanks : Text.blanks.all fun d => symbols.all fun s => !s.1.contains d := by
    decide +kernel
  simpa only [List.all_eq_true, Bool.not_eq_true', List.contains_eq_mem,
    decide_eq_false_iff_not] using hblanks

/-- No token begins with a blank. -/
theorem first?_of_isBlank (h : Text.isBlank d = true) (rest : List Char) :
    first? (d :: rest) = none := by
  have hseparates : Separates d := separates_of_isBlank h
  by_contra hsome
  obtain ⟨⟨x, count⟩, hfirst⟩ := Option.ne_none_iff_exists'.mp hsome
  obtain ⟨run, behind, htext, -, hne, hrun⟩ := spelling_of_first? hfirst
  have hd : d ∈ run := by
    cases run with
    | nil => exact absurd rfl hne
    | cons c run =>
      rw [(List.cons.inj htext).1]
      exact List.mem_cons_self
  cases hrun with
  | digits v hdigits => exact Bool.false_ne_true (hseparates.not_numeric.symm.trans (hdigits d hd))
  | letters hletters => exact Bool.false_ne_true (hseparates.not_alpha.symm.trans (hletters d hd))
  | symbol hmem => exact blanks_not_written d (Text.mem_blanks h) _ hmem hd

theorem Scans.of_blanks_append {blanks : List Char} (hblanks : ∀ d ∈ blanks, Text.isBlank d = true)
    (h : Scans (blanks ++ text) ts) : Scans text ts := by
  induction blanks with
  | nil => exact h
  | cons d blanks ih =>
    obtain ⟨hd, hblanks⟩ := List.forall_mem_cons.mp hblanks
    cases h with
    | skip _ hrest => exact ih hblanks hrest
    | token _ hfirst _ =>
      rw [first?_of_isBlank hd] at hfirst
      cases hfirst

/-- What stands before a separator has the first token that it has by itself. -/
theorem first?_append_of_separates {behind : List Char}
    (hbehind : ∀ d, behind.head? = some d → Separates d) (c : Char) (rest : List Char) :
    first? (c :: (rest ++ behind)) = first? (c :: rest) := by
  cases behind with
  | nil => rw [List.append_nil]
  | cons d behind => exact first?_append_separator (hbehind d rfl) c rest behind

theorem Scans.of_append_blanks {blanks : List Char} (hblanks : ∀ d ∈ blanks, Text.isBlank d = true)
    (h : Scans (text ++ blanks) ts) : Scans text ts := by
  have hseparates : ∀ d, blanks.head? = some d → Separates d :=
    fun d hd => separates_of_isBlank (hblanks d (List.mem_of_head? hd))
  have hnone {ts : List Token} (h : Scans blanks ts) : Scans [] ts :=
    .of_blanks_append hblanks (by rwa [List.append_nil])
  -- along the scan of the whole; where the text ends, the blanks are left
  generalize hwhole : text ++ blanks = whole at h
  induction h generalizing text with
  | nil =>
    rw [(List.append_eq_nil_iff.mp hwhole).1]
    exact .nil
  | @skip c rest ts hc hrest ih =>
    cases text with
    | nil =>
      obtain rfl : blanks = c :: rest := hwhole
      exact hnone (.skip hc hrest)
    | cons d text =>
      obtain ⟨rfl, hbehind⟩ := List.cons.inj hwhole
      exact .skip hc (ih hbehind)
  | @token c rest x count ts hc hfirst hrest ih =>
    cases text with
    | nil =>
      obtain rfl : blanks = c :: rest := hwhole
      exact hnone (.token hc hfirst hrest)
    | cons d text =>
      obtain ⟨rfl, rfl⟩ := List.cons.inj hwhole
      rw [List.append_eq, first?_append_of_separates hseparates] at hfirst
      exact .token hc hfirst (ih (List.drop_append_of_le_length (pred_le_of_first? hfirst)).symm)

/-- **Blanks around a text change nothing of its tokens.** -/
theorem Scans.of_surrounded {pre post : List Char} (hpre : ∀ d ∈ pre, Text.isBlank d = true)
    (hpost : ∀ d ∈ post, Text.isBlank d = true) (h : Scans (pre ++ text ++ post) ts) :
    Scans text ts :=
  .of_blanks_append hpre (.of_append_blanks hpost h)

/-! ### The connective -/

theorem ampersand_facts : ∀ s ∈ symbols, '&' ∉ s.1.tail ∨ s.1 = ['&', '&'] := by
  decide +kernel

/-- Before an `&` stands the first token that stands there without it, unless it is another `&`
that makes a token with this one. -/
theorem first?_append_and (h : first? (c :: rest) = some (x, count)) (more : List Char) :
    first? (c :: (rest ++ '&' :: more)) = some (x, count) := by
  rw [← h]
  have hdigits : (c :: (rest ++ '&' :: more)).takeWhile isNumeric =
      (c :: rest).takeWhile isNumeric := takeWhile_append_separator rfl (c :: rest) more
  have hletters : (c :: (rest ++ '&' :: more)).takeWhile Char.isAlpha =
      (c :: rest).takeWhile Char.isAlpha := takeWhile_append_separator rfl (c :: rest) more
  have hsigns : ∀ s ∈ symbols, s.1.isPrefixOf (c :: (rest ++ '&' :: more)) =
      s.1.isPrefixOf (c :: rest) := by
    intro s hs
    rcases ampersand_facts s hs with htail | hand
    · exact isPrefixOf_append_separator htail c rest more
    · cases rest with
      | nil =>
        -- a single one is no token
        have hne : c ≠ '&' := by
          rintro rfl
          have hnone : first? ['&'] = none := by decide
          rw [hnone] at h
          cases h
        have hfirst : ('&' == c) = false := beq_false_of_ne hne.symm
        rw [hand, List.isPrefixOf_cons_cons, List.isPrefixOf_cons_cons, hfirst]
        rfl
      | cons d rest =>
        rw [hand, List.isPrefixOf_cons_cons, List.isPrefixOf_cons_cons, List.cons_append,
          List.isPrefixOf_cons_cons, List.isPrefixOf_cons_cons]
        rfl
  unfold first?
  rw [hdigits, hletters, ← List.head?_filterMap, ← List.head?_filterMap,
    List.filterMap_congr fun s hs => ?_]
  obtain ⟨spelling, token⟩ := s
  dsimp only
  rw [hsigns _ hs]

/-- **Texts are scanned apart at an `&&` that is put between them.** -/
theorem Scans.append_and (h : Scans text u) (hmore : Scans more v) :
    Scans (text ++ '&' :: '&' :: more) (u ++ .connective .and :: v) := by
  induction h with
  | nil => exact .token rfl rfl hmore
  | skip hc _ ih => exact .skip hc ih
  | @token c rest x count ts hc hfirst _ ih =>
    rw [List.cons_append, List.cons_append]
    refine .token hc (first?_append_and hfirst _) ?_
    rw [List.drop_append_of_le_length (pred_le_of_first? hfirst)]
    exact ih

end CurvePlot.Token
