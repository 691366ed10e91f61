import CurvePlot.Proofs.Decimal.Plain
import CurvePlot.Proofs.Token.Lexeme
/-!
# Texts put together of operands

Two texts behind one another need not have the tokens of both: letters run together, and so do
digits, and an equality sign joins the sign before it. What is shown keeps its operands apart by
signs and parentheses. `Operand text u` says that a text has the tokens `u` wherever it is put
in this way, and its lemmas are the ways in which larger operands are made.
-/

namespace CurvePlot.Token

variable {run rest : List Char} {ts : List Token} {x : Token}

/-! ### Where tokens end -/

/-- **A word or a number in front of the text ends there.** -/
def Ends (rest : List Char) : Prop :=
  ∀ c, rest.head? = some c → c.isAlpha = false ∧ isNumeric c = false

theorem ends_cons {c : Char} (halpha : c.isAlpha = false) (hnumeric : isNumeric c = false)
    (rest : List Char) : Ends (c :: rest) := by
  rintro d ⟨⟩
  exact ⟨halpha, hnumeric⟩

theorem takeWhile_append_of_ends {p : Char → Bool} (hrun : ∀ c ∈ run, p c = true)
    (hrest : ∀ c, rest.head? = some c → p c = false) : (run ++ rest).takeWhile p = run := by
  have hnone : rest.takeWhile p = [] := by
    cases rest with
    | nil => rfl
    | cons c rest => rw [List.takeWhile_cons, hrest c rfl, if_neg Bool.false_ne_true]
  rw [List.takeWhile_append_of_pos hrun, hnone, List.append_nil]

/-- The longest lexeme of a text is its first token. -/
theorem Scans.lexeme (h : Longest run (run ++ rest)) (hx : Means run x) (hrest : Scans rest ts) :
    Scans (run ++ rest) (x :: ts) := by
  have hfirst := first?_of_longest h hx
  cases run with
  | nil => exact absurd rfl h.lexeme.ne_nil
  | cons c run =>
    refine .token h.lexeme.not_skipped hfirst ?_
    rwa [List.length_cons, Nat.add_sub_cancel, List.append_eq, List.drop_left]

/-- The only sign that makes another one of a sign is the equality sign. -/
theorem eq_of_spelling_prefix : ∀ s ∈ symbols, ∀ s' ∈ symbols, s.1.isPrefixOf s'.1 = true →
    s'.1 = s.1 ∨ s'.1 = s.1 ++ ['='] := by
  decide +kernel

theorem longest_of_mem_spellings (h : run ∈ spellings x) (hrest : rest.head? ≠ some '=') :
    Longest run (run ++ rest) := by
  refine ⟨.sign h, List.prefix_append run rest, fun {other} hother hbegins => ?_⟩
  by_contra hlonger
  -- a longer lexeme begins with the sign, so it is a sign as well
  have hfront : run <+: other :=
    List.prefix_of_prefix_length_le (List.prefix_append run rest) hbegins (by omega)
  obtain ⟨c, hc⟩ := List.exists_mem_of_ne_nil run (Lexeme.sign h).ne_nil
  obtain ⟨halpha, hnumeric, -⟩ := facts_of_mem_spellings h hc
  cases hother with
  | letters _ hletters =>
    exact Bool.false_ne_true (halpha.symm.trans (hletters c (hfront.subset hc)))
  | digits _ hdigits =>
    exact Bool.false_ne_true
      (hnumeric.symm.trans (numeric_of_digits hdigits c (hfront.subset hc)))
  | sign hmem =>
    obtain rfl | rfl : other = run ∨ other = run ++ ['='] :=
      eq_of_spelling_prefix _ (mem_spellings_iff.mp h) _ (mem_spellings_iff.mp hmem)
        (List.isPrefixOf_iff_prefix.mpr hfront)
    · exact hlonger (Nat.le_refl _)
    · obtain ⟨more, rfl⟩ := (List.prefix_append_right_inj run).mp hbegins
      exact hrest rfl

/-- A sign ends in front of what does not begin with an equality sign. -/
theorem Scans.sign (h : run ∈ spellings x) (hrest : rest.head? ≠ some '=') (hs : Scans rest ts) :
    Scans (run ++ rest) (x :: ts) :=
  .lexeme (longest_of_mem_spellings h hrest) (.sign h) hs

/-! ### Operands -/

/-- **The text is cut into these tokens wherever it stands,** unless a letter or a digit follows. It
can stand behind any sign. -/
structure Operand (text : List Char) (u : List Token) : Prop where
  begins : ∀ rest, (text ++ rest).head? ≠ some '='
  scans : ∀ {rest ts}, Ends rest → Scans rest ts → Scans (text ++ rest) (u ++ ts)

namespace Operand

variable {text text' : List Char} {u v : List Token}

theorem head?_append_ne (hne : run ≠ []) (h : '=' ∉ run) (rest : List Char) :
    (run ++ rest).head? ≠ some '=' := by
  cases run with
  | nil => exact absurd rfl hne
  | cons c run =>
    intro hc
    exact h (List.mem_cons.mpr (.inl (Option.some.inj hc).symm))

theorem word (hne : run ≠ []) (halpha : ∀ c ∈ run, c.isAlpha = true) :
    Operand run [.word run] where
  begins := head?_append_ne hne fun h => Bool.false_ne_true (halpha _ h)
  scans {rest ts} hends hs := by
    have htake : (run ++ rest).takeWhile Char.isAlpha = run :=
      takeWhile_append_of_ends halpha fun c hc => (hends c hc).1
    have hlongest : Longest ((run ++ rest).takeWhile Char.isAlpha) (run ++ rest) :=
      longest_letters (by rwa [htake])
    rw [htake] at hlongest
    exact .lexeme hlongest (.letters hne halpha) hs

theorem number {v : Float} (hv : Decimal.bare? run = some v) : Operand run [.number v] := by
  obtain ⟨hne, hdigits⟩ := Decimal.digits_of_bare? hv
  have hnumeric := numeric_of_digits hdigits
  have hbegins := head?_append_ne hne fun h => Bool.false_ne_true (hnumeric _ h)
  refine ⟨hbegins, fun {rest ts} hends hs => ?_⟩
  have htake : (run ++ rest).takeWhile isNumeric = run :=
    takeWhile_append_of_ends hnumeric fun c hc => (hends c hc).2
  have hlongest : Longest ((run ++ rest).takeWhile isNumeric) (run ++ rest) :=
    longest_digits (by rwa [htake])
  rw [htake] at hlongest
  exact .lexeme hlongest (.digits hne hdigits hv) hs

theorem parens (h : Operand text u) :
    Operand ('(' :: text ++ [')']) (.leftParen :: u ++ [.rightParen]) where
  begins rest := by simp
  scans {rest ts} _ hs := by
    -- the closing parenthesis ends the operand, whatever is behind it
    have hinside : Scans (text ++ ')' :: rest) (u ++ .rightParen :: ts) :=
      h.scans (ends_cons rfl rfl rest) (.token rfl rfl hs)
    simpa using scans_opening.mpr ⟨_, rfl, hinside⟩

theorem minus (h : Operand text u) : Operand ('-' :: text) (.minus :: u) where
  begins rest := by simp
  scans hends hs := scans_minus.mpr ⟨_, rfl, h.scans hends hs⟩

/-- A name in front of a parenthesis. -/
theorem call (hne : run ≠ []) (halpha : ∀ c ∈ run, c.isAlpha = true) (h : Operand text u) :
    Operand (run ++ ('(' :: text ++ [')'])) (.word run :: (.leftParen :: u ++ [.rightParen])) where
  begins rest := by
    rw [List.append_assoc]
    exact (word hne halpha).begins _
  scans hends hs := by
    rw [List.append_assoc]
    exact (word hne halpha).scans (ends_cons rfl rfl _) (h.parens.scans hends hs)

/-- Two operands with a sign between them. -/
theorem join (hx : run ∈ spellings x) (h : Operand text u) (h' : Operand text' v) :
    Operand (text ++ run ++ text') (u ++ x :: v) where
  begins rest := by
    rw [List.append_assoc, List.append_assoc]
    exact h.begins _
  scans {rest ts} hends hs := by
    -- the sign ends the left operand, and the right one cannot lengthen the sign
    have hright : Scans (run ++ (text' ++ rest)) (x :: (v ++ ts)) :=
      .sign hx (h'.begins rest) (h'.scans hends hs)
    have hrun : Ends (run ++ (text' ++ rest)) := by
      intro c hc
      rw [List.head?_append_of_ne_nil _ (Lexeme.sign hx).ne_nil] at hc
      obtain ⟨halpha, hnumeric, -⟩ := facts_of_mem_spellings hx (List.mem_of_head? hc)
      exact ⟨halpha, hnumeric⟩
    simpa using h.scans hrun hright

theorem behindBlank (h : Operand text u) : Operand (' ' :: text) u where
  begins rest := by simp
  scans hends hs := .skip rfl (h.scans hends hs)

theorem beforeBlank (h : Operand text u) : Operand (text ++ [' ']) u where
  begins rest := by
    rw [List.append_assoc]
    exact h.begins _
  scans {rest ts} _ hs := by
    rw [List.append_assoc]
    exact h.scans (ends_cons rfl rfl rest) (.skip rfl hs)

end Operand

/-! ### Signs of numbers -/

/-- The number that a token is has no sign. -/
def SignFree : Token → Prop
  | number v => Double.isNegative v = false
  | _ => True

theorem signFree_of_first? {text : List Char} {count : Nat} (h : first? text = some (x, count)) :
    x.SignFree := by
  cases x with
  | number v =>
    rw [first?_eq] at h
    split at h
    · obtain ⟨w, hw, heq⟩ := Option.map_eq_some_iff.mp h
      cases heq
      exact Decimal.isNegative_of_bare? hw
    · next hdigits =>
      split at h
      · cases h
      · next hletters =>
        -- no number is a sign
        obtain ⟨run, hmem, -⟩ := longest_sign (not_not.mp hdigits) (not_not.mp hletters) h
        cases hmem
  | _ => trivial

/-- **No number that is scanned has a sign.** -/
theorem Scans.signFree {text : List Char} (h : Scans text ts) : ∀ x ∈ ts, x.SignFree := by
  induction h with
  | nil => exact nofun
  | skip _ _ ih => exact ih
  | token _ hfirst _ ih => exact List.forall_mem_cons.mpr ⟨signFree_of_first? hfirst, ih⟩

end CurvePlot.Token
