import CurvePlot.Proofs.Decimal.Literal
import CurvePlot.Proofs.Token.Place
/-!
# Lexemes

What a text is made of, without regard to how it is scanned: signs, letters, and digits with
points. Lexemes may begin one another, so `Longest run text` says which one
stands at the beginning of a text. A run of digits and points is taken as a whole even where a
part of it would be a number.

`Cut front placed rest` says that a text has been cut from the left up to some place: each step
leaves a blank out or takes the longest lexeme, and notes the token and how many bytes are in
front of it. Where neither is possible the text is `Stuck`.

The main statement is `scan_iff_cut`. Scanning yields tokens exactly if the text can be cut to
its end, and fails exactly if cutting it gets stuck. The two halves meet in
`Cut.scan_append`, the invariant of cutting: what is scanned is what was noted, followed by what
is scanned of the rest.
-/

namespace CurvePlot.Token

/-! ### The longest lexeme -/

/-- How the signs are written, token by token. Letters and numbers are written freely. -/
def spellings : Token → List (List Char)
  | plus => [['+']]
  | minus => [['-']]
  | star => [['*'], ['⋅'], ['·'], ['×']]
  | slash => [['/']]
  | caret => [['^']]
  | leftParen => [['(']]
  | rightParen => [[')']]
  | comparison .less => [['<']]
  | comparison .lessEqual => [['<', '='], ['≤']]
  | comparison .greater => [['>']]
  | comparison .greaterEqual => [['>', '='], ['≥']]
  | comparison .equal => [['='], ['=', '=']]
  | connective .and => [['&', '&']]
  | connective .or => [['|', '|']]
  | pi => [['π']]
  | number _ | word _ => []

/-- What may stand between lexemes: space, tab, carriage return, line feed and form feed. -/
def blanks : List Char := [' ', '\t', '\r', '\n', '\x0c']

/-- **What a text is made of,** besides blanks. -/
inductive Lexeme : List Char → Prop where
  /-- A sign stands as it is written. -/
  | sign {run : List Char} {x : Token} : run ∈ spellings x → Lexeme run
  /-- Letters that follow each other. -/
  | letters {run : List Char} : run ≠ [] → (∀ c ∈ run, c.isAlpha = true) → Lexeme run
  /-- Digits and points that follow each other. -/
  | digits {run : List Char} : run ≠ [] → (∀ c ∈ run, c.isDigit = true ∨ c = '.') → Lexeme run

/-- **The token that a lexeme is.** Digits and points are one only if they are a literal. -/
inductive Means : List Char → Token → Prop where
  | sign {run : List Char} {x : Token} : run ∈ spellings x → Means run x
  | letters {run : List Char} : run ≠ [] → (∀ c ∈ run, c.isAlpha = true) → Means run (.word run)
  | digits {run : List Char} {v : Float} : run ≠ [] → (∀ c ∈ run, c.isDigit = true ∨ c = '.') →
      Decimal.bare? run = some v → Means run (.number v)

/-- **The lexeme that stands at the beginning of a text:** no other one reaches further. -/
structure Longest (run text : List Char) : Prop where
  /-- It is a lexeme. -/
  lexeme : Lexeme run
  /-- The text begins with it. -/
  begins : run <+: text
  /-- No lexeme that the text begins with is longer. -/
  le : ∀ {other}, Lexeme other → other <+: text → other.length ≤ run.length

variable {run text rest front : List Char} {c : Char} {x y : Token} {placed : List Placed}
  {e : CompileError} {position : Nat}

/-! The table by which texts are scanned lists these spellings. -/

/-- The spellings are those of the table. -/
theorem mem_spellings_iff : run ∈ spellings x ↔ (run, x) ∈ symbols := by
  have hlisted : ∀ s ∈ symbols, s.1 ∈ spellings s.2 := by decide
  refine ⟨fun h => ?_, fun h => hlisted _ h⟩
  cases x with
  | number | word => cases h
  | comparison op | connective op =>
    cases op <;> simp only [spellings, List.mem_cons, List.not_mem_nil, or_false] at h <;>
      simp [symbols, h, or_comm]
  | _ =>
    simp only [spellings, List.mem_cons, List.not_mem_nil, or_false] at h
    simp [symbols, h]

/-- The scanner skips exactly the blanks. -/
theorem isSkipped_iff : isSkipped c = true ↔ c ∈ blanks := by
  simp only [isSkipped, Bool.or_eq_true, beq_iff_eq, blanks, List.mem_cons, List.not_mem_nil, or_false,
    or_assoc]

/-- A character is numeric if it is a digit or a point. -/
theorem isNumeric_iff : isNumeric c = true ↔ c.isDigit = true ∨ c = '.' := by
  rw [isNumeric, Bool.or_eq_true, beq_iff_eq]

/-- Digits and points are numeric. -/
theorem numeric_of_digits (h : ∀ c ∈ run, c.isDigit = true ∨ c = '.') :
    ∀ c ∈ run, isNumeric c = true := fun c hc => isNumeric_iff.mpr (h c hc)

/-- What is taken while it is numeric are digits and points. -/
theorem digits_of_takeWhile (text : List Char) :
    ∀ c ∈ text.takeWhile isNumeric, c.isDigit = true ∨ c = '.' :=
  fun _ hc => isNumeric_iff.mp (List.mem_takeWhile_imp hc)

/-- What is taken while it is alphabetic are letters. -/
theorem letters_of_takeWhile (text : List Char) :
    ∀ c ∈ text.takeWhile Char.isAlpha, c.isAlpha = true := fun _ hc => List.mem_takeWhile_imp hc

/-- A text has one longest lexeme at most. -/
theorem Longest.unique {other : List Char} (h : Longest run text) (h' : Longest other text) :
    run = other :=
  (List.prefix_of_prefix_length_le h.begins h'.begins (h'.le h.lexeme h.begins)).eq_of_length
    (Nat.le_antisymm (h'.le h.lexeme h.begins) (h.le h'.lexeme h'.begins))

/-- What comes behind a text may only make its lexemes longer. -/
theorem Longest.of_append {more : List Char} (h : Longest run (text ++ more))
    (hbegins : run <+: text) : Longest run text where
  lexeme := h.lexeme
  begins := hbegins
  le hother hfront := h.le hother (List.IsPrefix.trans hfront (List.prefix_append text more))

/-- No lexeme is empty. -/
theorem Lexeme.ne_nil (h : Lexeme run) : run ≠ [] := by
  cases h with
  | sign hmem => exact symbols_ne_nil (mem_spellings_iff.mp hmem)
  | letters hne | digits hne => exact hne

/-- What means a token is a lexeme. -/
theorem Means.lexeme (h : Means run x) : Lexeme run := by
  cases h with
  | sign hmem => exact .sign hmem
  | letters hne halpha => exact .letters hne halpha
  | digits hne hdigits => exact .digits hne hdigits

/-- Signs are told from letters, digits and blanks by their first character. -/
theorem sign_facts : ∀ s ∈ symbols, s.1.all fun c => !c.isAlpha && !isNumeric c && !isSkipped c := by
  decide +kernel

/-- A sign comes before the signs that it begins with, and none is listed twice. -/
theorem pairwise_symbols : symbols.Pairwise fun s s' => s.1.isPrefixOf s'.1 = false := by
  decide +kernel

/-- The characters of a sign are no letters, digits, points or blanks. -/
theorem facts_of_mem_spellings (h : run ∈ spellings x) (hc : c ∈ run) :
    c.isAlpha = false ∧ isNumeric c = false ∧ isSkipped c = false := by
  have hfacts := List.all_eq_true.mp (sign_facts _ (mem_spellings_iff.mp h)) c hc
  simpa [and_assoc] using hfacts

/-- A letter is not numeric. -/
theorem not_numeric_of_alpha (h : c.isAlpha = true) : isNumeric c = false :=
  Bool.eq_false_iff.mpr fun hnumeric =>
    Bool.false_ne_true ((not_alpha_of_isNumeric hnumeric).symm.trans h)

/-- A letter is not skipped. -/
theorem not_skipped_of_alpha (h : c.isAlpha = true) : isSkipped c = false :=
  Bool.eq_false_iff.mpr fun hskipped =>
    Bool.false_ne_true ((not_alpha_of_isSkipped hskipped).symm.trans h)

/-- A numeric character is not skipped. -/
theorem not_skipped_of_numeric (h : isNumeric c = true) : isSkipped c = false := by
  by_contra hskipped
  rw [Bool.not_eq_false] at hskipped
  unfold isSkipped at hskipped
  simp only [Bool.or_eq_true, beq_iff_eq] at hskipped
  rcases hskipped with (((rfl | rfl) | rfl) | rfl) | rfl <;> cases h

/-- No lexeme begins with a blank. -/
theorem Lexeme.not_skipped (h : Lexeme (c :: rest)) : isSkipped c = false := by
  cases h with
  | sign hmem => exact (facts_of_mem_spellings hmem List.mem_cons_self).2.2
  | letters _ halpha => exact not_skipped_of_alpha (halpha c List.mem_cons_self)
  | digits _ hdigits => exact not_skipped_of_numeric (numeric_of_digits hdigits c List.mem_cons_self)

/-- What begins a text and goes on alike is no longer than what is taken of the text. -/
theorem length_le_takeWhile {p : Char → Bool} (hrun : ∀ c ∈ run, p c = true)
    (hbegins : run <+: text) : run.length ≤ (text.takeWhile p).length := by
  obtain ⟨more, rfl⟩ := hbegins
  rw [List.takeWhile_append_of_pos hrun, List.length_append]
  exact Nat.le_add_right _ _

/-- What is taken of a text is not empty if the text begins with what is taken. -/
theorem takeWhile_ne_nil {p : Char → Bool} (hrun : ∀ c ∈ run, p c = true) (hne : run ≠ [])
    (hbegins : run <+: text) : text.takeWhile p ≠ [] := fun hnil => by
  have hle := length_le_takeWhile hrun hbegins
  rw [hnil, List.length_nil, Nat.le_zero, List.length_eq_zero_iff] at hle
  exact hne hle

/-- What begins a text is not taken if its first character is not. -/
theorem takeWhile_eq_nil {p : Char → Bool} (hrun : ∀ c ∈ run, p c = false) (hne : run ≠ [])
    (hbegins : run <+: text) : text.takeWhile p = [] := by
  obtain ⟨more, rfl⟩ := hbegins
  cases run with
  | nil => exact absurd rfl hne
  | cons c run =>
    have hc : p c = false := hrun c List.mem_cons_self
    rw [List.cons_append, List.takeWhile_cons, hc]
    rfl

/-- A text that begins with digits or points has all of them for its lexeme. -/
theorem longest_digits (h : text.takeWhile isNumeric ≠ []) :
    Longest (text.takeWhile isNumeric) text := by
  refine ⟨.digits h (digits_of_takeWhile text), List.takeWhile_prefix _,
    fun {other} hother hbegins => ?_⟩
  -- a lexeme of another kind would begin with another character
  cases hother with
  | digits _ hdigits => exact length_le_takeWhile (numeric_of_digits hdigits) hbegins
  | sign hmem =>
    exact absurd (takeWhile_eq_nil (fun c hc => (facts_of_mem_spellings hmem hc).2.1)
      (Lexeme.sign hmem).ne_nil hbegins) h
  | letters hne halpha =>
    exact absurd (takeWhile_eq_nil (fun c hc => not_numeric_of_alpha (halpha c hc)) hne hbegins) h

/-- A text that begins with letters has all of them for its lexeme. -/
theorem longest_letters (h : text.takeWhile Char.isAlpha ≠ []) :
    Longest (text.takeWhile Char.isAlpha) text := by
  refine ⟨.letters h (letters_of_takeWhile text), List.takeWhile_prefix _,
    fun {other} hother hbegins => ?_⟩
  -- a lexeme of another kind would begin with another character
  cases hother with
  | letters _ hletters => exact length_le_takeWhile hletters hbegins
  | sign hmem =>
    exact absurd (takeWhile_eq_nil (fun c hc => (facts_of_mem_spellings hmem hc).1)
      (Lexeme.sign hmem).ne_nil hbegins) h
  | digits hne hdigits =>
    exact absurd (takeWhile_eq_nil
      (fun c hc => not_alpha_of_isNumeric (numeric_of_digits hdigits c hc)) hne hbegins) h

/-- The sign that a text begins with, and how many characters it takes. -/
def sign? (text : List Char) : Option (Token × Nat) :=
  symbols.findSome? fun (spelling, token) =>
    if spelling.isPrefixOf text then some (token, spelling.length) else none

/-- A scanner looks for digits first, then for letters, and then for signs. -/
theorem first?_eq (text : List Char) : first? text =
    if text.takeWhile isNumeric ≠ [] then
      (Decimal.bare? (text.takeWhile isNumeric)).map fun v =>
        (number v, (text.takeWhile isNumeric).length)
    else if text.takeWhile Char.isAlpha ≠ [] then
      some (word (text.takeWhile Char.isAlpha), (text.takeWhile Char.isAlpha).length)
    else sign? text := by
  unfold first?
  simp only [Bool.not_eq_true', List.isEmpty_eq_false_iff]
  rfl

/-- **The sign that is found first is the longest.** -/
theorem longest_sign (hdigits : text.takeWhile isNumeric = [])
    (hletters : text.takeWhile Char.isAlpha = []) {count : Nat}
    (h : sign? text = some (x, count)) :
    ∃ run, run ∈ spellings x ∧ run.length = count ∧ Longest run text := by
  obtain ⟨before, ⟨run, y⟩, after, hsplit, hfound, hbefore⟩ := List.findSome?_eq_some_iff.mp h
  have hpairwise := pairwise_symbols
  rw [hsplit, List.pairwise_append] at hpairwise
  have hmem : (run, y) ∈ symbols := by
    rw [hsplit]
    exact List.mem_append_right before List.mem_cons_self
  dsimp only at hfound
  split at hfound
  · -- no other lexeme reaches further, of whatever kind it is
    next hprefix =>
    obtain ⟨rfl, rfl⟩ := Prod.mk.inj (Option.some.inj hfound)
    have hbegins := List.isPrefixOf_iff_prefix.mp hprefix
    have hsign := mem_spellings_iff.mpr hmem
    refine ⟨run, hsign, rfl, .sign hsign, hbegins, fun {other} hother hbegins' => ?_⟩
    cases hother with
    | digits hne hdigits' =>
      exact absurd hdigits (takeWhile_ne_nil (numeric_of_digits hdigits') hne hbegins')
    | letters hne halpha => exact absurd hletters (takeWhile_ne_nil halpha hne hbegins')
    | sign hmem' =>
      -- a longer sign begins with this one, and so it is listed before and was not found
      by_contra hlt
      have hlonger : run <+: other :=
        List.prefix_of_prefix_length_le hbegins hbegins' (Nat.le_of_not_le hlt)
      rw [mem_spellings_iff, hsplit, List.mem_append, List.mem_cons] at hmem'
      rcases hmem' with hmem' | heq | hmem'
      · -- listed before
        have hnone := hbefore _ hmem'
        dsimp only at hnone
        rw [if_pos (List.isPrefixOf_iff_prefix.mpr hbegins')] at hnone
        cases hnone
      · -- listed at the same place
        exact hlt (Nat.le_of_eq (congrArg List.length (Prod.mk.inj heq).1))
      · -- listed behind, but then it does not begin with this one
        have hfalse := (List.pairwise_cons.mp hpairwise.2.1).1 _ hmem'
        rw [List.isPrefixOf_iff_prefix.mpr hlonger] at hfalse
        cases hfalse
  · cases hfound

/-- Where no sign is found there is none, and no lexeme if there are no digits and letters. -/
theorem not_lexeme_of_sign?_eq_none (hdigits : text.takeWhile isNumeric = [])
    (hletters : text.takeWhile Char.isAlpha = []) (h : sign? text = none) (hrun : Lexeme run) :
    ¬run <+: text := fun hbegins => by
  cases hrun with
  | digits hne hdigits' => exact takeWhile_ne_nil (numeric_of_digits hdigits') hne hbegins hdigits
  | letters hne halpha => exact takeWhile_ne_nil halpha hne hbegins hletters
  | sign hmem =>
    have hnone := List.findSome?_eq_none_iff.mp h _ (mem_spellings_iff.mp hmem)
    dsimp only at hnone
    rw [if_pos (List.isPrefixOf_iff_prefix.mpr hbegins)] at hnone
    cases hnone

/-- A sign stands for one token. -/
theorem eq_of_mem_spellings (h : run ∈ spellings x) (h' : run ∈ spellings y) : x = y := by
  have hself : run.isPrefixOf run = true := List.isPrefixOf_iff_prefix.mpr (List.prefix_refl run)
  -- two places in the list, of which one would be before the other
  rw [mem_spellings_iff] at h h'
  by_contra hne
  obtain ⟨before, after, hsplit⟩ := List.append_of_mem h
  rw [hsplit, List.mem_append, List.mem_cons] at h'
  have hpairwise := pairwise_symbols
  rw [hsplit, List.pairwise_append] at hpairwise
  -- no spelling in the list begins a later one, and this one begins itself
  rcases h' with h' | heq | h'
  · have hfalse := hpairwise.2.2 _ h' _ List.mem_cons_self
    rw [hself] at hfalse
    cases hfalse
  · exact hne (Prod.mk.inj heq).2.symm
  · have hfalse := (List.pairwise_cons.mp hpairwise.2.1).1 _ h'
    rw [hself] at hfalse
    cases hfalse

/-- **The first token of a text is its longest lexeme.** -/
theorem first?_of_longest (h : Longest run text) (hx : Means run x) :
    first? text = some (x, run.length) := by
  rw [first?_eq]
  -- the lexeme is of one of three kinds, and the scanner finds it in its turn
  cases hx with
  | digits hne hrun hv =>
    have hdigits := takeWhile_ne_nil (numeric_of_digits hrun) hne h.begins
    obtain rfl := h.unique (longest_digits hdigits)
    rw [if_pos hdigits, hv]
    rfl
  | letters hne halpha =>
    have hletters := takeWhile_ne_nil halpha hne h.begins
    obtain rfl := h.unique (longest_letters hletters)
    rw [if_neg (not_not.mpr (takeWhile_eq_nil (fun c hc => not_numeric_of_alpha (halpha c hc)) hne
      h.begins)), if_pos hletters]
  | sign hmem =>
    have hdigits := takeWhile_eq_nil (fun c hc => (facts_of_mem_spellings hmem hc).2.1)
      h.lexeme.ne_nil h.begins
    have hletters := takeWhile_eq_nil (fun c hc => (facts_of_mem_spellings hmem hc).1)
      h.lexeme.ne_nil h.begins
    rw [if_neg (not_not.mpr hdigits), if_neg (not_not.mpr hletters)]
    cases hsign : sign? text with
    | none => exact absurd h.begins (not_lexeme_of_sign?_eq_none hdigits hletters hsign h.lexeme)
    | some found =>
      obtain ⟨y, count⟩ := found
      obtain ⟨other, hother, rfl, hlongest⟩ := longest_sign hdigits hletters hsign
      obtain rfl := h.unique hlongest
      rw [eq_of_mem_spellings hmem hother]

/-! ### Cutting a text -/

/-- **A text is cut from the left.** The tokens noted so far come from the characters in front, and
the rest is still to be cut. -/
inductive Cut : List Char → List Placed → List Char → Prop where
  | start (text : List Char) : Cut [] [] text
  /-- A blank is left out. -/
  | blank {front rest : List Char} {placed : List Placed} {c : Char} :
      Cut front placed (c :: rest) → c ∈ blanks → Cut (front ++ [c]) placed rest
  /-- The longest lexeme is taken, and its token is noted with the bytes in front of it. -/
  | lexeme {front run rest : List Char} {placed : List Placed} {x : Token} :
      Cut front placed (run ++ rest) → Longest run (run ++ rest) → Means run x →
      Cut (front ++ run) (placed ++ [(x, Text.byteLength front)]) rest

/-- **Where a text cannot be cut,** and what is wrong there: digits and points that are no
literal, or a character with which nothing begins. -/
inductive Stuck (position : Nat) : List Char → CompileError → Prop where
  | number {run text : List Char} : Longest run text → (∀ c ∈ run, c.isDigit = true ∨ c = '.') →
      ((∀ c ∈ run, c.isDigit = false) ∨ 2 ≤ run.count '.') →
      Stuck position text (.invalidNumber position)
  | character {c : Char} {rest : List Char} : c ∉ blanks →
      (∀ run, Lexeme run → ¬run <+: c :: rest) →
      Stuck position (c :: rest) (.unexpectedCharacter position c)

/-- A blank is skipped with its one byte. -/
theorem scanFrom_blank (h : c ∈ blanks) (position : Nat) (rest : List Char) :
    scanFrom position (c :: rest) = scanFrom (position + Text.byteLength [c]) rest := by
  rw [← isSkipped_iff] at h
  rw [scanFrom, if_pos h, Text.byteLength, Text.byteLength, utf8Size_of_isSkipped h]

/-- A lexeme is scanned as its token, at its place. -/
theorem scanFrom_lexeme (h : Longest run (run ++ rest)) (hx : Means run x) (position : Nat) :
    scanFrom position (run ++ rest) =
      (scanFrom (position + Text.byteLength run) rest).map ((x, position) :: ·) := by
  have hfirst := first?_of_longest h hx
  have hlexeme := h.lexeme
  obtain ⟨c, run, rfl⟩ := List.exists_cons_of_ne_nil hlexeme.ne_nil
  rw [List.cons_append] at hfirst ⊢
  have htake : (c :: (run ++ rest)).take (c :: run).length = c :: run := by
    rw [← List.cons_append, List.take_left]
  have hdrop : (run ++ rest).drop ((c :: run).length - 1) = rest := List.drop_left
  rw [scanFrom, if_neg (by rw [hlexeme.not_skipped]; exact Bool.false_ne_true), hfirst]
  dsimp only
  rw [htake, hdrop]
  cases scanFrom (position + Text.byteLength (c :: run)) rest <;> rfl

/-- Where a text is stuck, the scanner stops with the same error. -/
theorem scanFrom_stuck (h : Stuck position text e) : scanFrom position text = .error e := by
  cases h with
  | @number run _ hlongest hrun hbad =>
    have hdigits :=
      takeWhile_ne_nil (numeric_of_digits hrun) hlongest.lexeme.ne_nil hlongest.begins
    obtain rfl := hlongest.unique (longest_digits hdigits)
    have hnone := (Decimal.bare?_eq_none_iff hrun hdigits).mpr hbad
    have hfirst : first? text = none := by rw [first?_eq, if_pos hdigits, hnone]; rfl
    cases text with
    | nil => exact absurd rfl hdigits
    | cons c rest =>
      have hc : isNumeric c = true := by
        by_contra hc
        exact hdigits (by rw [List.takeWhile_cons, if_neg hc])
      rw [scanFrom, if_neg (by rw [not_skipped_of_numeric hc]; exact Bool.false_ne_true), hfirst]
      dsimp only
      rw [if_pos hc]
  | @character c rest hblank hnone =>
    -- any letters or digits taken here would be a lexeme
    have htaken {p : Char → Bool} (hlexeme : ∀ run, run ≠ [] → (∀ c ∈ run, p c = true) → Lexeme run) :
        (c :: rest).takeWhile p = [] := by
      by_contra hne
      exact hnone _ (hlexeme _ hne fun c hc => List.mem_takeWhile_imp hc) (List.takeWhile_prefix _)
    have hdigits : (c :: rest).takeWhile isNumeric = [] :=
      htaken fun _ hne hrun => .digits hne fun c hc => isNumeric_iff.mp (hrun c hc)
    have hletters : (c :: rest).takeWhile Char.isAlpha = [] := htaken fun _ => .letters
    have hsign : sign? (c :: rest) = none := by
      cases hsign : sign? (c :: rest) with
      | none => rfl
      | some found =>
        obtain ⟨run, -, -, hlongest⟩ := longest_sign hdigits hletters hsign
        exact absurd hlongest.begins (hnone run hlongest.lexeme)
    have hc : isNumeric c = false := Bool.eq_false_iff.mpr fun hc => by
      rw [List.takeWhile_cons, if_pos hc] at hdigits
      cases hdigits
    rw [scanFrom, if_neg (mt isSkipped_iff.mp hblank), first?_eq,
      if_neg (not_not.mpr hdigits), if_neg (not_not.mpr hletters), hsign]
    dsimp only
    rw [if_neg (by rw [hc]; exact Bool.false_ne_true)]

/-- **What was cut is scanned as it was noted,** and then the rest is scanned. -/
theorem Cut.scan_append (h : Cut front placed rest) :
    scan (front ++ rest) = (scanFrom (Text.byteLength front) rest).map (placed ++ ·) := by
  have hbytes (front run : List Char) :
      Text.byteLength front + Text.byteLength run = Text.byteLength (front ++ run) :=
    (Text.byteLength_append front run).symm
  -- the induction is on the cutting, from the left
  induction h with
  | start text =>
    rw [List.nil_append, scan]
    show scanFrom 0 text = (scanFrom 0 text).map _
    cases scanFrom 0 text <;> rfl
  | blank _ hc ih =>
    rw [scanFrom_blank hc, hbytes] at ih
    rw [List.append_assoc]
    exact ih
  | @lexeme front run rest placed x _ hlongest hx ih =>
    rw [scanFrom_lexeme hlongest hx, hbytes] at ih
    rw [List.append_assoc, ih]
    cases scanFrom (Text.byteLength (front ++ run)) rest with
    | error e => rfl
    | ok more =>
      show Except.ok (placed ++ (x, _) :: more) = Except.ok (placed ++ [(x, _)] ++ more)
      rw [List.append_assoc]
      rfl

/-- **A text can be cut further,** or cutting it is stuck. -/
theorem exists_step (h : Cut front placed (c :: rest)) :
    (∃ run more placed', c :: rest = run ++ more ∧ run ≠ [] ∧ Cut (front ++ run) placed' more) ∨
      ∃ e, Stuck (Text.byteLength front) (c :: rest) e := by
  have htake {run : List Char} {x : Token} (hlongest : Longest run (c :: rest)) (hx : Means run x) :
      ∃ run more placed', c :: rest = run ++ more ∧ run ≠ [] ∧
        Cut (front ++ run) placed' more := by
    obtain ⟨more, hmore⟩ := hlongest.begins
    rw [← hmore] at h hlongest
    exact ⟨run, more, _, hmore.symm, hlongest.lexeme.ne_nil, h.lexeme hlongest hx⟩
  -- in the order in which the scanner tries: blanks, digits, letters, signs
  by_cases hblank : c ∈ blanks
  · exact .inl ⟨[c], rest, placed, rfl, List.cons_ne_nil _ _, h.blank hblank⟩
  by_cases hdigits : (c :: rest).takeWhile isNumeric = []
  · by_cases hletters : (c :: rest).takeWhile Char.isAlpha = []
    · cases hsign : sign? (c :: rest) with
      | some found =>
        obtain ⟨run, hmem, -, hlongest⟩ := longest_sign hdigits hletters hsign
        exact .inl (htake hlongest (.sign hmem))
      | none =>
        exact .inr ⟨_, .character hblank
          fun _ hrun => not_lexeme_of_sign?_eq_none hdigits hletters hsign hrun⟩
    · exact .inl (htake (longest_letters hletters) (.letters hletters (letters_of_takeWhile _)))
  · have hrun := digits_of_takeWhile (c :: rest)
    cases hv : Decimal.bare? ((c :: rest).takeWhile isNumeric) with
    | some v => exact .inl (htake (longest_digits hdigits) (.digits hdigits hrun hv))
    | none =>
      exact .inr ⟨_, .number (longest_digits hdigits) hrun
        ((Decimal.bare?_eq_none_iff hrun hdigits).mp hv)⟩

/-- Every text is cut to its end, or to a place where it is stuck. -/
theorem Cut.finish {front rest : List Char} {placed : List Placed} (h : Cut front placed rest) :
    (∃ placed', Cut (front ++ rest) placed' []) ∨ ∃ front' placed' rest' e,
      front ++ rest = front' ++ rest' ∧ Cut front' placed' rest' ∧
        Stuck (Text.byteLength front') rest' e := by
  cases rest with
  | nil => exact .inl ⟨placed, by rwa [List.append_nil]⟩
  | cons c rest =>
    rcases exists_step h with ⟨run, more, placed', hrest, hne, hcut⟩ | ⟨e, hstuck⟩
    · -- what is taken has a character, so less is left
      have hshorter : more.length < (c :: rest).length := by
        rw [hrest, List.length_append]
        exact Nat.lt_add_of_pos_left (List.length_pos_iff.mpr hne)
      rw [hrest, ← List.append_assoc]
      exact hcut.finish
    · exact .inr ⟨front, placed, c :: rest, e, rfl, h, hstuck⟩
termination_by rest.length

/-- Up to a place a text is cut as it would be if it ended there. -/
theorem Cut.truncate (rest : List Char) {more : List Char} (h : Cut front placed (rest ++ more)) :
    Cut front placed rest := by
  -- the rest shrinks while the text is cut, and `more` stays at its end
  obtain ⟨whole, hwhole⟩ : ∃ whole, whole = rest ++ more := ⟨_, rfl⟩
  rw [← hwhole] at h
  induction h generalizing rest with
  | start => exact .start rest
  | @blank front _ placed c _ hc ih =>
    obtain rfl := hwhole
    exact (ih (c :: rest) rfl).blank hc
  | @lexeme front run _ placed x _ hlongest hx ih =>
    obtain rfl := hwhole
    have hcut := ih (run ++ rest) (List.append_assoc run rest more).symm
    rw [← List.append_assoc] at hlongest
    exact hcut.lexeme (hlongest.of_append (List.prefix_append run rest)) hx

/-- **To scan a text is to cut it into its longest lexemes.** The tokens are those of the lexemes,
in order and each with the bytes in front of it, and nothing but blanks is left out. There are
none if cutting is stuck somewhere. Then the error tells of that place, and what is in front of
it is scanned by itself. -/
theorem scan_iff_cut (text : List Char) :
    (∀ placed, scan text = .ok placed ↔ Cut text placed []) ∧
      ∀ e, scan text = .error e ↔ ∃ front placed rest, text = front ++ rest ∧
        Cut front placed rest ∧ scan front = .ok placed ∧
        Stuck (Text.byteLength front) rest e := by
  have hdone {text placed} (h : Cut text placed []) : scan text = .ok placed := by
    have hscan := h.scan_append
    rw [List.append_nil, scanFrom] at hscan
    rw [hscan]
    exact congrArg Except.ok (List.append_nil placed)
  have hstuck {front placed rest e} (h : Cut front placed rest)
      (hstuck : Stuck (Text.byteLength front) rest e) : scan (front ++ rest) = .error e := by
    rw [h.scan_append, scanFrom_stuck hstuck]
    rfl
  -- a text is cut to its end or gets stuck, and the scanner tells which
  constructor
  · intro placed
    refine ⟨fun hscan => ?_, hdone⟩
    rcases (Cut.start text).finish with ⟨placed', hcut⟩ | ⟨front, _, rest, e, htext, hcut, he⟩
    · -- the text is cut to its end, and there is only one way to scan it
      rw [List.nil_append] at hcut
      obtain rfl : placed = placed' := Except.ok.inj (hscan.symm.trans (hdone hcut))
      exact hcut
    · -- the text is stuck, but it was scanned
      rw [List.nil_append] at htext
      rw [htext, hstuck hcut he] at hscan
      cases hscan
  · intro e
    constructor
    · intro hscan
      rcases (Cut.start text).finish with ⟨placed, hcut⟩ | ⟨front, placed, rest, e', htext, hcut, he⟩
      · -- the text was cut to its end, but it was not scanned
        rw [List.nil_append] at hcut
        rw [hdone hcut] at hscan
        cases hscan
      · -- the text is stuck, and scanning it tells where
        rw [List.nil_append] at htext
        rw [htext, hstuck hcut he] at hscan
        obtain rfl := Except.error.inj hscan
        exact ⟨front, placed, rest, htext, hcut, hdone (.truncate [] hcut), he⟩
    · rintro ⟨front, placed, rest, rfl, hcut, -, he⟩
      exact hstuck hcut he

end CurvePlot.Token
