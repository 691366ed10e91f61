import CurvePlot.Proofs.Token.Scan
/-!
# Where the tokens of a text stand

A position counts the bytes in front of a place. `Token.scan` gives the position of each token, and
where no token begins it gives the position of that place; at these positions of the text stands
what is said to stand there (`first?_of_mem_scan`, `standsAt_of_scan_error`). What is behind a
parenthesis is scanned into the tokens behind it (`leftParen_of_scan`).

What stands at a place of a text stands at the same place of a longer text, further on by what is
in front (`CompileError.StandsAt.surround`). What comes behind has to begin with a separator, lest
a token or a number go on.
-/

namespace CurvePlot

namespace Text

theorem byteLength_append (text more : List Char) :
    byteLength (text ++ more) = byteLength text + byteLength more := by
  induction text with
  | nil => exact (Nat.zero_add _).symm
  | cons c text ih => rw [List.cons_append, byteLength, byteLength, ih, Nat.add_assoc]

theorem byteLength_eq_zero {text : List Char} (h : byteLength text = 0) : text = [] := by
  cases text with
  | nil => rfl
  | cons c text =>
    have hpos := c.utf8Size_pos
    unfold byteLength at h
    omega

end Text

namespace CompileError

/-- The position that a cause names, if it names one. -/
def position? : CompileError → Option Nat
  | unexpectedCharacter position _ => some position
  | unexpectedToken position _ => some position
  | unmatchedParenthesis position => some position
  | invalidNumber position => some position
  | empty | unexpectedEnd | unknownFunction _ | unmatchedBrace => none

/-- **The text begins with what the cause names:** with that character, with a text or a token that
reads so, with a parenthesis, or with digits and points that are no number. -/
def Heads (text : List Char) : CompileError → Prop
  | unexpectedCharacter _ found => text.head? = some found
  | unexpectedToken _ found => found.toList <+: text ∨
      ∃ token count, Token.first? text = some (token, count) ∧ token.text = found
  | unmatchedParenthesis _ => text.head? = some '('
  | invalidNumber _ => text.takeWhile Token.isNumeric ≠ [] ∧
      Decimal.bare? (text.takeWhile Token.isNumeric) = none
  | empty | unexpectedEnd | unknownFunction _ | unmatchedBrace => False

/-- **What the cause names stands in the text,** that many bytes behind the position that it
gives. -/
def StandsAt (e : CompileError) (shift : Nat) (text : List Char) : Prop :=
  ∃ front rest position, text = front ++ rest ∧ e.position? = some position ∧
    Text.byteLength front = shift + position ∧ e.Heads rest

/-- What comes next is nothing, or a separator. -/
def Separated (behind : List Char) : Prop := ∀ d, behind.head? = some d → Token.Separates d

variable {e : CompileError} {text behind : List Char} {shift : Nat}

/-- What the text begins with does not go on behind a separator. -/
theorem Heads.append (h : e.Heads text) (hbehind : Separated behind) :
    e.Heads (text ++ behind) := by
  cases behind with
  | nil =>
    rw [List.append_nil]
    exact h
  | cons d more =>
    have hd : Token.Separates d := hbehind d rfl
    cases e with
    | unexpectedCharacter position found =>
      show (text ++ d :: more).head? = some found
      rw [List.head?_append, h, Option.some_or]
    | unmatchedParenthesis position =>
      show (text ++ d :: more).head? = some '('
      rw [List.head?_append, h, Option.some_or]
    | invalidNumber position =>
      show (text ++ d :: more).takeWhile _ ≠ [] ∧
        Decimal.bare? ((text ++ d :: more).takeWhile _) = none
      rw [Token.takeWhile_append_separator hd.not_numeric]
      exact h
    | unexpectedToken position found =>
      refine h.imp (fun hprefix => hprefix.trans (List.prefix_append _ _)) ?_
      rintro ⟨token, count, hfirst, htoken⟩
      cases text with
      | nil => cases hfirst
      | cons c rest =>
        refine ⟨token, count, ?_, htoken⟩
        rw [List.cons_append, Token.first?_append_separator hd, hfirst]
    | empty | unexpectedEnd | unknownFunction | unmatchedBrace => exact h

/-- **In a longer text it stands further on,** by what is in front. -/
theorem StandsAt.surround (h : e.StandsAt shift text) (hbehind : Separated behind)
    (before : List Char) :
    e.StandsAt (Text.byteLength before + shift) (before ++ text ++ behind) := by
  obtain ⟨front, rest, position, rfl, hposition, hfront, hheads⟩ := h
  refine ⟨before ++ front, rest ++ behind, position, ?_, hposition, ?_, hheads.append hbehind⟩
  · simp only [List.append_assoc]
  · rw [Text.byteLength_append, hfront, Nat.add_assoc]

end CompileError

namespace Token

variable {c : Char} {text rest : List Char} {x : Token} {count position i : Nat} {ts : List Placed}
  {e : CompileError}

theorem utf8Size_of_isSkipped (h : isSkipped c = true) : c.utf8Size = 1 := by
  unfold isSkipped at h
  simp only [Bool.or_eq_true, beq_iff_eq] at h
  rcases h with (((rfl | rfl) | rfl) | rfl) | rfl <;> rfl

/-- Behind the first token comes what is scanned next. -/
theorem eq_append_of_first? (h : first? (c :: rest) = some (x, count)) :
    c :: rest = (c :: rest).take count ++ rest.drop (count - 1) := by
  obtain ⟨run, behind, hrun, rfl, hne, -⟩ := spelling_of_first? h
  obtain ⟨d, run, rfl⟩ := List.exists_cons_of_ne_nil hne
  obtain ⟨rfl, rfl⟩ := List.cons.inj hrun
  simp

/-- A token stands where it is said to stand, further on by what was counted before, and what comes
behind it is scanned into the tokens behind it. -/
theorem first?_of_scanFrom {us vs : List Placed}
    (h : scanFrom position text = .ok (us ++ (x, i) :: vs)) :
    ∃ front c rest count, text = front ++ c :: rest ∧ i = position + Text.byteLength front ∧
      first? (c :: rest) = some (x, count) ∧ Scans (rest.drop (count - 1)) (vs.map Prod.fst) := by
  -- each step leaves something in front: a blank, or a token of `us`
  generalize hts : us ++ (x, i) :: vs = ts at h
  induction position, text using scanFrom.induct generalizing us ts with
  | case1 position =>
    rw [scanFrom] at h
    obtain rfl := Except.ok.inj h
    simp at hts
  | case2 position c rest hc ih =>
    rw [scanFrom, if_pos hc] at h
    obtain ⟨front, d, behind, count, rfl, rfl, hfirst, hbehind⟩ := ih _ hts h
    refine ⟨c :: front, d, behind, count, rfl, ?_, hfirst, hbehind⟩
    rw [Text.byteLength, utf8Size_of_isSkipped hc, Nat.add_assoc]
  | case3 position c rest hc y count hfirst =>
    rename_i width more hmore ih
    rw [scanFrom, if_neg hc, hfirst] at h
    dsimp only at h
    rw [hmore] at h
    obtain rfl := Except.ok.inj h
    cases us with
    | nil =>
      obtain ⟨heq, rfl⟩ := List.cons.inj hts
      obtain ⟨rfl, rfl⟩ := Prod.mk.inj heq
      exact ⟨[], c, rest, count, rfl, rfl, hfirst, scans_of_scanFrom hmore⟩
    | cons u us =>
      obtain ⟨-, hus⟩ := List.cons.inj hts
      obtain ⟨front, d, behind, count', hrest, rfl, hbehind⟩ := ih _ hus hmore
      refine ⟨(c :: rest).take count ++ front, d, behind, count', ?_, ?_, hbehind⟩
      · rw [List.append_assoc, ← hrest]
        exact eq_append_of_first? hfirst
      · rw [Text.byteLength_append, Nat.add_assoc]
  | case4 position c rest hc y count hfirst =>
    rename_i width e hmore _
    rw [scanFrom, if_neg hc, hfirst] at h
    dsimp only at h
    rw [hmore] at h
    cases h
  | case5 position c rest hc hfirst =>
    rw [scanFrom, if_neg hc, hfirst] at h
    cases h

/-- A text that begins with no token begins with a malformed number or a stray character. -/
theorem heads_of_first?_eq_none (h : first? (c :: rest) = none) (position : Nat) :
    (if isNumeric c then CompileError.invalidNumber position
      else .unexpectedCharacter position c).Heads (c :: rest) := by
  split
  · next hc =>
    have hdigits : (c :: rest).takeWhile isNumeric ≠ [] := by
      rw [List.takeWhile_cons, if_pos hc]
      exact List.cons_ne_nil _ _
    refine ⟨hdigits, ?_⟩
    unfold first? at h
    dsimp only at h
    rw [if_pos (by simpa using hdigits)] at h
    exact Option.map_eq_none_iff.mp h
  · rfl

/-- A text is not scanned where no token begins, and what is said of it is what stands there. -/
theorem eq_of_scanFrom_error (h : scanFrom position text = .error e) :
    ∃ front c rest, text = front ++ c :: rest ∧ first? (c :: rest) = none ∧
      e = if isNumeric c then .invalidNumber (position + Text.byteLength front)
        else .unexpectedCharacter (position + Text.byteLength front) c := by
  -- each step leaves something in front, as for the tokens that are scanned
  induction position, text using scanFrom.induct generalizing e with
  | case1 position =>
    rw [scanFrom] at h
    cases h
  | case2 position c rest hc ih =>
    rw [scanFrom, if_pos hc] at h
    obtain ⟨front, d, behind, rfl, hnone, heq⟩ := ih h
    refine ⟨c :: front, d, behind, rfl, hnone, ?_⟩
    rw [heq, Text.byteLength, utf8Size_of_isSkipped hc, Nat.add_assoc]
  | case3 position c rest hc y count hfirst =>
    rename_i width more hmore ih
    rw [scanFrom, if_neg hc, hfirst] at h
    dsimp only at h
    rw [hmore] at h
    cases h
  | case4 position c rest hc y count hfirst =>
    rename_i width e' hmore ih
    rw [scanFrom, if_neg hc, hfirst] at h
    dsimp only at h
    rw [hmore] at h
    obtain rfl := Except.error.inj h
    obtain ⟨front, d, behind, hrest, hnone, heq⟩ := ih hmore
    refine ⟨(c :: rest).take count ++ front, d, behind, ?_, hnone, ?_⟩
    · rw [List.append_assoc, ← hrest]
      exact eq_append_of_first? hfirst
    · rw [heq, Text.byteLength_append, Nat.add_assoc]
  | case5 position c rest hc hfirst =>
    rw [scanFrom, if_neg hc, hfirst] at h
    exact ⟨[], c, rest, rfl, hfirst, (Except.error.inj h).symm⟩

/-- **The tokens of a text stand where they are said to stand.** -/
theorem first?_of_mem_scan (h : scan text = .ok ts) (hmem : (x, i) ∈ ts) :
    ∃ front rest count, text = front ++ rest ∧ Text.byteLength front = i ∧
      first? rest = some (x, count) := by
  obtain ⟨us, vs, rfl⟩ := List.append_of_mem hmem
  obtain ⟨front, c, rest, count, htext, hi, hfirst, -⟩ := first?_of_scanFrom h
  exact ⟨front, c :: rest, count, htext, by rw [hi, Nat.zero_add], hfirst⟩

/-- **Where no token begins stands what is said to stand there.** -/
theorem standsAt_of_scan_error (h : scan text = .error e) : e.StandsAt 0 text := by
  obtain ⟨front, c, rest, htext, hnone, rfl⟩ := eq_of_scanFrom_error h
  have hheads := heads_of_first?_eq_none hnone (0 + Text.byteLength front)
  refine ⟨front, c :: rest, 0 + Text.byteLength front, htext, ?_, ?_, hheads⟩
  · split
    · rfl
    · rfl
  · rw [Nat.zero_add, Nat.zero_add]

/-- Scanning does not look for parentheses that are not closed. -/
theorem ne_unmatchedParenthesis_of_scan (h : scan text = .error e) (i : Nat) :
    e ≠ .unmatchedParenthesis i := by
  obtain ⟨front, c, rest, -, -, rfl⟩ := eq_of_scanFrom_error h
  split
  · exact nofun
  · exact nofun

/-- An opening parenthesis is written in one way. -/
theorem eq_of_leftParen (h : first? (c :: rest) = some (.leftParen, count)) :
    c = '(' ∧ count = 1 := by
  obtain ⟨run, behind, htext, hcount, -, hrun⟩ := spelling_of_first? h
  have hspelling : ∀ s ∈ symbols, s.2 = .leftParen → s.1 = ['('] := by decide
  cases hrun with
  | symbol hmem =>
    obtain rfl : run = ['('] := hspelling (run, .leftParen) hmem rfl
    exact ⟨(List.cons.inj htext).1, hcount.symm⟩

/-- **An opening parenthesis stands where it is said to stand,** and the tokens behind it are those
of what is behind it. -/
theorem leftParen_of_scan {us vs : List Placed} (h : scan text = .ok (us ++ (.leftParen, i) :: vs)) :
    ∃ front inside, text = front ++ '(' :: inside ∧ Text.byteLength front = i ∧
      Scans inside (vs.map Prod.fst) := by
  obtain ⟨front, c, rest, count, htext, hi, hfirst, hinside⟩ := first?_of_scanFrom h
  obtain ⟨rfl, rfl⟩ := eq_of_leftParen hfirst
  exact ⟨front, rest, htext, by rw [hi, Nat.zero_add], hinside⟩

end Token

end CurvePlot
