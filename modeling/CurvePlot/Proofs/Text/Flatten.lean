import CurvePlot.Proofs.Text.Signs
import CurvePlot.Sheet
/-!
# Texts on a line

A text that is written on a line of a sheet loses its line breaks, and when it is read back
it loses the blanks around it. What is left is `Sheet.normal`. This module says that the
steps before and behind do not see the difference: a line break is a blank like the space
that it becomes, so flattening commutes with trimming, with cutting a text at a sign, and
with the change to lower case; and blanks at the ends stay where they are when the case
changes (`lowercase_surrounded`) and are trimmed away in any number (`trim_surrounded`).

That case changes around a blank as at the end of the text is a fact of the tables: no
blank is a letter, none is left out of account at the end of a word, and none has another
lower case (`blank_facts`).
-/

namespace CurvePlot

namespace Sheet

/-! ### Flattening -/

/-- A line break becomes a space, and everything else stays. -/
def flat (c : Char) : Char := if c = '\r' || c = '\n' then ' ' else c

/-- Flattening goes sign by sign, -/
theorem flatten_eq_map (text : List Char) : flatten text = text.map flat := rfl

/-- so there is nothing to do in an empty text, -/
@[simp]
theorem flatten_nil : flatten [] = [] := rfl

/-- and one sign after the other is flattened, -/
@[simp]
theorem flatten_cons (c : Char) (text : List Char) :
    flatten (c :: text) = flat c :: flatten text := rfl

/-- and one part after the other. -/
@[simp]
theorem flatten_append (text more : List Char) :
    flatten (text ++ more) = flatten text ++ flatten more :=
  List.map_append

/-- It does not matter from which end. -/
theorem flatten_reverse (text : List Char) : flatten text.reverse = (flatten text).reverse :=
  List.map_reverse

/-- A text that is flattened has as many signs. -/
theorem isEmpty_flatten (text : List Char) : (flatten text).isEmpty = text.isEmpty :=
  List.isEmpty_map

/-- A sign that neither breaks a line nor comes of a line break. -/
def Plain (c : Char) : Prop := c ≠ ' ' ∧ c ≠ '\r' ∧ c ≠ '\n'

instance (c : Char) : Decidable (Plain c) := inferInstanceAs (Decidable (_ ∧ _))

/-- Other signs stay as they are. -/
theorem flat_of_ne {c : Char} (hr : c ≠ '\r') (hn : c ≠ '\n') : flat c = c := by
  simp [flat, hr, hn]

/-- A sign is a line break that becomes a space, or it stays. -/
theorem flat_cases (c : Char) : (c = '\r' ∨ c = '\n') ∧ flat c = ' ' ∨ flat c = c := by
  by_cases hr : c = '\r'
  · exact .inl ⟨.inl hr, by rw [hr]; rfl⟩
  by_cases hn : c = '\n'
  · exact .inl ⟨.inr hn, by rw [hn]; rfl⟩
  exact .inr (flat_of_ne hr hn)

/-- What does not tell the two line breaks from the space does not see flattening. -/
theorem apply_flat {α : Type} {p : Char → α} (hr : p ' ' = p '\r') (hn : p ' ' = p '\n')
    (c : Char) : p (flat c) = p c := by
  rcases flat_cases c with ⟨rfl | rfl, h⟩ | h
  · rw [h, hr]
  · rw [h, hn]
  · rw [h]

/-- A plain sign comes of itself only, -/
theorem flat_eq_iff {c d : Char} (hd : Plain d) : flat c = d ↔ c = d := by
  rcases flat_cases c with ⟨rfl | rfl, h⟩ | h
  · rw [h]
    exact iff_of_false (Ne.symm hd.1) (Ne.symm hd.2.1)
  · rw [h]
    exact iff_of_false (Ne.symm hd.1) (Ne.symm hd.2.2)
  · rw [h]

/-- and so it is compared alike before and after. -/
theorem flat_beq {c d : Char} (hd : Plain d) : (flat c == d) = (c == d) := by
  rw [Bool.eq_iff_iff, beq_iff_eq, beq_iff_eq, flat_eq_iff hd]

/-- A sign that is flat stays flat, -/
theorem flat_flat (c : Char) : flat (flat c) = flat c := by
  rcases flat_cases c with ⟨-, h⟩ | h
  · rw [h]; rfl
  · rw [h, h]

/-- and a text that is flat stays flat. -/
theorem flatten_flatten (text : List Char) : flatten (flatten text) = flatten text := by
  rw [flatten_eq_map, flatten_eq_map, List.map_map]
  exact congrArg text.map (funext flat_flat)

/-- A text without line breaks stays as it is. -/
theorem flatten_eq_self {text : List Char} (h : ∀ c ∈ text, flat c = c) : flatten text = text :=
  (List.map_congr_left h).trans (List.map_id text)

/-- A flat text stands on one line. -/
theorem newline_not_mem_flatten (text : List Char) : '\n' ∉ flatten text := by
  intro hmem
  obtain ⟨c, -, hc⟩ := List.mem_map.mp hmem
  change flat c = '\n' at hc
  rcases flat_cases c with ⟨-, h⟩ | h
  · -- it is a space, and no line break
    rw [h] at hc
    cases hc
  · rw [h] at hc
    -- it is as it was, so it was a line break and is none
    rw [hc] at h
    cases h

variable {p : Char → Bool} (text : List Char)

/-- Signs are dropped alike by a test that does not see flattening, -/
theorem dropWhile_flatten (hp : ∀ c, p (flat c) = p c) :
    (flatten text).dropWhile p = flatten (text.dropWhile p) := by
  rw [flatten_eq_map, List.dropWhile_map, show p ∘ flat = p from funext hp]
  rfl

/-- and taken alike. -/
theorem takeWhile_flatten (hp : ∀ c, p (flat c) = p c) :
    (flatten text).takeWhile p = flatten (text.takeWhile p) := by
  rw [flatten_eq_map, List.takeWhile_map, show p ∘ flat = p from funext hp]
  rfl

/-- A line break is a blank, as a space is. -/
theorem isBlank_flat (c : Char) : Text.isBlank (flat c) = Text.isBlank c :=
  apply_flat (by decide) (by decide) c

/-- So flattening commutes with trimming at the front -/
theorem trimStart_flatten : Text.trimStart (flatten text) = flatten (Text.trimStart text) :=
  dropWhile_flatten text isBlank_flat

/-- and at both ends. -/
theorem trim_flatten : Text.trim (flatten text) = flatten (Text.trim text) := by
  rw [Text.trim, trimStart_flatten, Text.trimEnd, ← flatten_reverse,
    dropWhile_flatten _ isBlank_flat, ← flatten_reverse]
  rfl

/-- A text is cut at a sign where it was cut before. -/
theorem splitAt?_flatten {c : Char} (hc : Plain c) : Decimal.splitAt? c (flatten text) =
    (Decimal.splitAt? c text).map fun (before, after) => (flatten before, flatten after) := by
  have hp (d : Char) : (flat d != c) = (d != c) := congrArg not (flat_beq hc)
  unfold Decimal.splitAt?
  rw [dropWhile_flatten text hp, takeWhile_flatten text hp]
  -- nothing is left to cut, or the text is cut there
  cases text.dropWhile (· != c) <;> rfl

/-- A plain beginning is found before and after. -/
theorem isPrefixOf_flatten {start : List Char} (h : start.all (Plain ·)) :
    start.isPrefixOf (flatten text) = start.isPrefixOf text := by
  induction start generalizing text with
  | nil => rfl
  | cons c start ih =>
    rw [List.all_cons, Bool.and_eq_true, decide_eq_true_eq] at h
    cases text with
    | nil => rfl
    | cons d text =>
      have hd : (c == flat d) = (c == d) := by
        rw [Bool.beq_comm, flat_beq h.1, Bool.beq_comm]
      rw [flatten_cons, List.isPrefixOf, List.isPrefixOf, hd, ih text h.2]

/-! ### Case -/

/-- Whether a letter comes next is not changed by flattening. -/
theorem meetsLetter_flatten : Text.meetsLetter (flatten text) = Text.meetsLetter text := by
  unfold Text.meetsLetter
  rw [dropWhile_flatten text (apply_flat (by decide +kernel) (by decide +kernel))]
  cases text.dropWhile (Text.inRanges Text.caseIgnorableRanges) with
  | nil => rfl
  | cons c rest =>
    exact apply_flat (p := Text.inRanges Text.casedRanges) (by decide +kernel) (by decide +kernel) c

/-- A flattened sign has the flattened lower case. -/
theorem lowerChar_flat (c : Char) : Text.lowerChar (flat c) = flatten (Text.lowerChar c) := by
  rcases flat_cases c with ⟨rfl | rfl, h⟩ | h
  · rfl
  · rfl
  · -- only a line break has a line break for its lower case
    rw [h]
    refine (flatten_eq_self fun d hd => ?_).symm
    by_cases hr : d = '\r'
    · have hc := Text.eq_of_mem_lowerChar ⟨by decide, by decide, by decide⟩ (hr ▸ hd)
      rw [hr, hc, h]
    by_cases hn : d = '\n'
    · have hc := Text.eq_of_mem_lowerChar ⟨by decide, by decide, by decide⟩ (hn ▸ hd)
      rw [hn, hc, h]
    exact flat_of_ne hr hn

/-- Behind any text, a flattened one has the flattened lower case. -/
theorem lowercaseAfter_flatten (before : List Char) :
    Text.lowercaseAfter (flatten before) (flatten text) =
      flatten (Text.lowercaseAfter before text) := by
  -- by induction on the text, what was read of it standing in reverse
  induction text generalizing before with
  | nil => rfl
  | cons c rest ih =>
    -- no line break is a capital sigma, so the same signs are treated apart
    have hsigma : (flat c).toNat = 0x3A3 ↔ c.toNat = 0x3A3 :=
      iff_of_eq (apply_flat (p := fun c => c.toNat = 0x3A3) (by decide) (by decide) c)
    rw [flatten_cons, Text.lowercaseAfter, Text.lowercaseAfter, flatten_append,
      meetsLetter_flatten, meetsLetter_flatten, ← flatten_cons, ih, lowerChar_flat]
    by_cases hc : c.toNat = 0x3A3
    · rw [if_pos hc, if_pos (hsigma.mpr hc)]
      split <;> rfl
    · rw [if_neg hc, if_neg (mt hsigma.mp hc)]

/-- **Flattening commutes with the change to lower case.** -/
theorem lowercase_flatten : Text.lowercase (flatten text) = flatten (Text.lowercase text) :=
  lowercaseAfter_flatten text []

end Sheet

namespace Text

/-! ### Blanks at the ends -/

/-- All blanks, one by one. -/
def blanks : List Char :=
  blankRanges.flatMap fun r => (List.range' r.1 (r.2 + 1 - r.1)).map Char.ofNat

/-- The blanks are listed completely. -/
theorem mem_blanks {c : Char} (h : isBlank c = true) : c ∈ blanks := by
  obtain ⟨r, hr, hc⟩ := List.any_eq_true.mp h
  rw [Bool.and_eq_true, decide_eq_true_eq, decide_eq_true_eq] at hc
  refine List.mem_flatMap.mpr ⟨r, hr, List.mem_map.mpr ⟨c.toNat, ?_, Char.ofNat_toNat c⟩⟩
  rw [List.mem_range'_1]
  omega

/-- No letter and no digit is a blank. -/
theorem isBlank_of_isAlphanum {c : Char} (hc : c.isAlphanum = true) : isBlank c = false := by
  -- the table is finite, so it is looked through
  have hblanks : blanks.all fun d => !d.isAlphanum := by decide +kernel
  refine Bool.eq_false_iff.mpr fun hblank => ?_
  have hnot := List.all_eq_true.mp hblanks c (mem_blanks hblank)
  rw [hc] at hnot
  cases hnot

/-- **A blank is no letter,** ends words, and is its own lower case. -/
theorem blank_facts {c : Char} (h : c ∈ blanks) : lowerChar c = [c] ∧ c.toNat ≠ 0x3A3 ∧
    inRanges caseIgnorableRanges c = false ∧ inRanges casedRanges c = false := by
  have hall : blanks.all fun c => lowerChar c = [c] ∧ c.toNat ≠ 0x3A3 ∧
      inRanges caseIgnorableRanges c = false ∧ inRanges casedRanges c = false := by
    decide +kernel
  exact of_decide_eq_true (List.all_eq_true.mp hall c h)

variable {pre post : List Char}

/-- What is left out of account at the end of a word is passed over. -/
theorem meetsLetter_cons (c : Char) (text : List Char) : meetsLetter (c :: text) =
    if inRanges caseIgnorableRanges c then meetsLetter text else inRanges casedRanges c := by
  unfold meetsLetter
  by_cases h : inRanges caseIgnorableRanges c = true
  · rw [List.dropWhile_cons_of_pos h, if_pos h]
  · rw [List.dropWhile_cons_of_neg h, if_neg h]

/-- A blank is no letter, -/
theorem meetsLetter_blank {c : Char} (h : isBlank c = true) (text : List Char) :
    meetsLetter (c :: text) = false := by
  obtain ⟨-, -, hignorable, hcased⟩ := blank_facts (mem_blanks h)
  rw [meetsLetter_cons, hignorable, hcased]
  rfl

/-- and blanks at the end of a text add none. -/
theorem meetsLetter_append_blanks (hpost : ∀ c ∈ post, isBlank c = true) (text : List Char) :
    meetsLetter (text ++ post) = meetsLetter text := by
  induction text with
  | nil =>
    cases post with
    | nil => rfl
    | cons c post => exact meetsLetter_blank (hpost c List.mem_cons_self) post
  | cons c text ih => rw [List.cons_append, meetsLetter_cons, meetsLetter_cons, ih]

/-- Of what stands before a text, only one thing matters to its lower case. -/
theorem lowercaseAfter_congr {before before' : List Char}
    (h : meetsLetter before = meetsLetter before') (text : List Char) :
    lowercaseAfter before text = lowercaseAfter before' text := by
  induction text generalizing before before' with
  | nil => rfl
  | cons c text ih =>
    -- the sign that was just read comes to stand before
    have hnext : meetsLetter (c :: before) = meetsLetter (c :: before') := by
      rw [meetsLetter_cons, meetsLetter_cons, h]
    rw [lowercaseAfter, lowercaseAfter, h, ih hnext]

/-- Behind a blank a text begins anew. -/
theorem lowercaseAfter_blank {c : Char} (h : isBlank c = true) (before text : List Char) :
    lowercaseAfter before (c :: text) = c :: lowercase text := by
  obtain ⟨hlower, hsigma, -, -⟩ := blank_facts (mem_blanks h)
  -- the blank stands between, so nothing is seen of what comes before it
  have hnext : meetsLetter (c :: before) = meetsLetter [] := meetsLetter_blank h before
  rw [lowercaseAfter, if_neg hsigma, hlower, lowercaseAfter_congr hnext]
  rfl

/-- Blanks in front stay as they are, -/
theorem lowercase_blanks_append (hpre : ∀ c ∈ pre, isBlank c = true) (text : List Char) :
    lowercase (pre ++ text) = pre ++ lowercase text := by
  induction pre with
  | nil => rfl
  | cons c pre ih =>
    rw [List.cons_append, lowercase, lowercaseAfter_blank (hpre c List.mem_cons_self),
      ih fun d hd => hpre d (List.mem_cons_of_mem _ hd)]
    rfl

/-- and so do blanks at the end. -/
theorem lowercaseAfter_append_blanks (hpost : ∀ c ∈ post, isBlank c = true)
    (before text : List Char) :
    lowercaseAfter before (text ++ post) = lowercaseAfter before text ++ post := by
  induction text generalizing before with
  | nil =>
    cases post with
    | nil => rfl
    | cons c post =>
      -- nothing but blanks is left, and they are lowered as blanks in front
      have hrest : lowercase (post ++ []) = post ++ lowercase [] :=
        lowercase_blanks_append (fun d hd => hpost d (List.mem_cons_of_mem _ hd)) []
      rw [List.append_nil] at hrest
      rw [List.nil_append, lowercaseAfter_blank (hpost c List.mem_cons_self), hrest]
      exact congrArg (c :: ·) (List.append_nil post)
  | cons c text ih =>
    -- the sign is lowered alike, since the blanks do not bring a letter
    rw [List.cons_append, lowercaseAfter, lowercaseAfter, ih, meetsLetter_append_blanks hpost,
      List.append_assoc]

/-- **Blanks around a text stay as they are when its case changes.** -/
theorem lowercase_surrounded (hpre : ∀ c ∈ pre, isBlank c = true)
    (hpost : ∀ c ∈ post, isBlank c = true) (text : List Char) :
    lowercase (pre ++ text ++ post) = pre ++ lowercase text ++ post := by
  rw [List.append_assoc, lowercase_blanks_append hpre, List.append_assoc]
  exact congrArg (pre ++ ·) (lowercaseAfter_append_blanks hpost [] text)

/-- Blanks at the end are trimmed away, whatever stands before them. -/
theorem trimEnd_append_blanks (hpost : ∀ c ∈ post, isBlank c = true) (text : List Char) :
    trimEnd (text ++ post) = trimEnd text := by
  have hreverse : ∀ c ∈ post.reverse, isBlank c = true :=
    fun c hc => hpost c (List.mem_reverse.mp hc)
  rw [trimEnd, List.reverse_append, List.dropWhile_append_of_pos hreverse]
  rfl

/-- Blanks in front are trimmed away, -/
theorem trim_blanks_append (hpre : ∀ c ∈ pre, isBlank c = true) (text : List Char) :
    trim (pre ++ text) = trim text := by
  rw [trim, trimStart, List.dropWhile_append_of_pos hpre]
  rfl

/-- and blanks at the end are, also where there is nothing else. -/
theorem trim_append_blanks (hpost : ∀ c ∈ post, isBlank c = true) (text : List Char) :
    trim (text ++ post) = trim text := by
  rw [trim, trim, trimStart, List.dropWhile_append]
  split
  · -- nothing but blanks stands there
    next hnil =>
    rw [trimStart, List.isEmpty_iff.mp hnil, List.dropWhile_eq_nil_iff.mpr hpost]
  · exact trimEnd_append_blanks hpost _

/-- **Blanks around a text are trimmed away,** however many there are. -/
theorem trim_surrounded (hpre : ∀ c ∈ pre, isBlank c = true)
    (hpost : ∀ c ∈ post, isBlank c = true) (text : List Char) :
    trim (pre ++ text ++ post) = trim text := by
  rw [trim_append_blanks hpost, trim_blanks_append hpre]

/-- A text is its trimmed text with blanks around it. -/
theorem exists_surrounding (text : List Char) : ∃ pre post, (∀ c ∈ pre, isBlank c = true) ∧
    (∀ c ∈ post, isBlank c = true) ∧ text = pre ++ trim text ++ post := by
  refine ⟨text.takeWhile isBlank, ((trimStart text).reverse.takeWhile isBlank).reverse,
    fun c hc => List.mem_takeWhile_imp hc,
    fun c hc => List.mem_takeWhile_imp (List.mem_reverse.mp hc), ?_⟩
  -- behind the front, the end is what is trimmed from the reversed text
  have hend : trimStart text =
      trim text ++ ((trimStart text).reverse.takeWhile isBlank).reverse := by
    rw [trim, trimEnd, ← List.reverse_append, List.takeWhile_append_dropWhile,
      List.reverse_reverse]
  rw [List.append_assoc, ← hend]
  exact List.takeWhile_append_dropWhile.symm

/-- A trimmed text stays as it is. -/
theorem trim_trim (text : List Char) : trim (trim text) = trim text := by
  obtain ⟨pre, post, hpre, hpost, h⟩ := exists_surrounding text
  calc trim (trim text) = trim (pre ++ trim text ++ post) := (trim_surrounded hpre hpost _).symm
    _ = trim text := by rw [← h]

end Text

namespace Sheet

/-- **A text as it comes back** from a line that it was written on. -/
def normal (text : List Char) : List Char := Text.trim (flatten text)

/-- A text in its normal form stays as it is. -/
theorem normal_normal (text : List Char) : normal (normal text) = normal text := by
  rw [normal, normal, ← trim_flatten, flatten_flatten, Text.trim_trim]

/-! ### Writing and reading -/

/-- A line ends at the first line break. -/
theorem lines_append_newline {line : List Char} (h : '\n' ∉ line) (rest : List Char) :
    lines (line ++ '\n' :: rest) = line :: lines rest := by
  induction line with
  | nil => rw [List.nil_append, lines, if_pos rfl]
  | cons c line ih =>
    have hc : c ≠ '\n' := fun heq => h (heq ▸ List.mem_cons_self)
    rw [List.cons_append, lines, if_neg hc, ih fun hmem => h (List.mem_cons_of_mem _ hmem)]

/-- Every text is on a line of its own, and behind the last one there is nothing. -/
theorem lines_write (texts : List String) :
    lines (write texts).toList = (texts.map fun text => flatten text.toList) ++ [[]] := by
  rw [write, String.toList_ofList]
  induction texts with
  | nil => rfl
  | cons text texts ih =>
    rw [List.flatMap_cons, List.append_assoc, List.singleton_append,
      lines_append_newline (newline_not_mem_flatten text.toList), ih]
    rfl

/-- **What is read from a sheet** is what was written on it, in order, in its normal form,
except what was blank. -/
theorem read_write (texts : List String) : read (write texts) =
    (texts.filter fun text => !(Text.trim text.toList).isEmpty).map fun text =>
      String.ofList (normal text.toList) := by
  rw [read, lines_write, List.map_append, List.filter_append, List.map_append]
  -- behind the last line break stands an empty line, which is left out
  have hlast : (([[]] : List (List Char)).map Text.trim).filter (fun line => !line.isEmpty) = [] :=
    rfl
  rw [hlast, List.map_nil, List.append_nil, List.map_map, List.filter_map, List.map_map]
  -- blank texts are blank after flattening too, and no others
  have hblank (text : String) :
      (!(Text.trim (flatten text.toList)).isEmpty) = !(Text.trim text.toList).isEmpty := by
    rw [trim_flatten, isEmpty_flatten]
  exact congrArg (List.map _) (List.filter_congr fun text _ => hblank text)

/-- What was read back is in its normal form already, and none of it is blank. -/
theorem read_write_read (texts : List String) :
    read (write (read (write texts))) = read (write texts) := by
  have hnormal (text : String) : normal (String.ofList (normal text.toList)).toList =
      normal text.toList := by
    rw [String.toList_ofList, normal_normal]
  rw [read_write (read (write texts)), read_write]
  refine (congrArg (List.map _) (List.filter_eq_self.mpr fun text htext => ?_)).trans ?_
  · -- what was read back is not blank
    obtain ⟨old, hold, rfl⟩ := List.mem_map.mp htext
    obtain ⟨-, hblank⟩ := List.mem_filter.mp hold
    rw [String.toList_ofList, normal, Text.trim_trim, trim_flatten, isEmpty_flatten]
    exact hblank
  · rw [List.map_map]
    exact List.map_congr_left fun text _ => congrArg String.ofList (hnormal text)

end Sheet

end CurvePlot
