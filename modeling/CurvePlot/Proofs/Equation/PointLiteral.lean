import CurvePlot.Proofs.Decimal.Plain
import CurvePlot.Proofs.Equation.Compile
import CurvePlot.Proofs.Text.Flatten
/-!
# Which texts are points

A text is cut to a point from outside: blanks are trimmed, parentheses are taken off, the rest is
cut at its first comma, and the parts are trimmed and cut at their first point. `Written` says how
the text of a point is put together from inside: two plain decimals, blanks around each, a comma
between them, parentheses and blanks around it all. The two agree (`read?_eq_some_iff`), since the
cuts are found again where the signs were put: a decimal has no comma in it, and none of its
characters is a blank (`PlainDecimal.of_mem_text`).

A decimal is read as the double nearest to the number that is written, with the sign that is
written (`PlainDecimal.Reads`), and there is only one such double (`PlainDecimal.Reads.eq`).
-/

namespace CurvePlot

namespace Text

/-- The text with blanks around it. -/
def Padded (inner text : List Char) : Prop :=
  ∃ pre post, (∀ c ∈ pre, isBlank c = true) ∧ (∀ c ∈ post, isBlank c = true) ∧
    text = pre ++ inner ++ post

/-- Trimming leaves a text with blanks around it. -/
theorem padded_trim (text : List Char) : Padded (trim text) text := exists_surrounding text

theorem Padded.trim_eq {inner text : List Char} (h : Padded inner text) :
    trim text = trim inner := by
  obtain ⟨pre, post, hpre, hpost, rfl⟩ := h
  exact trim_surrounded hpre hpost inner

theorem Padded.isBlank_or_mem {inner text : List Char} (h : Padded inner text) {c : Char}
    (hc : c ∈ text) : isBlank c = true ∨ c ∈ inner := by
  obtain ⟨pre, post, hpre, hpost, rfl⟩ := h
  rcases List.mem_append.mp hc with hc | hc
  · exact (List.mem_append.mp hc).imp_left (hpre c)
  · exact .inl (hpost c hc)

/-- Nothing is trimmed from a text that begins and ends with no blank. -/
theorem trim_eq_self {text : List Char} (hhead : ∀ c, text.head? = some c → isBlank c = false)
    (hlast : ∀ c, text.getLast? = some c → isBlank c = false) : trim text = text := by
  have hdrop {l : List Char} (h : ∀ c, l.head? = some c → isBlank c = false) :
      l.dropWhile isBlank = l := by
    cases l with
    | nil => rfl
    | cons c rest => rw [List.dropWhile_cons_of_neg (by rw [h c rfl]; exact Bool.false_ne_true)]
  rw [trim, trimStart, hdrop hhead, trimEnd, hdrop, List.reverse_reverse]
  rwa [List.head?_reverse]

end Text

namespace PointLiteral

open Text (Padded padded_trim)

/-! ### Decimals -/

/-- A plain decimal as it is written: at least one digit, perhaps with a minus before it, and with a
point and more digits behind it. -/
structure PlainDecimal where
  /-- A minus stands in front. -/
  negative : Bool
  /-- The digits in front of the point. -/
  whole : List Char
  /-- The digits behind the point, if there is one. -/
  fraction : Option (List Char)
  /-- There is one at least. -/
  whole_ne_nil : whole ≠ []
  /-- They are digits. -/
  allDigits_whole : Decimal.allDigits whole = true
  /-- So are those behind the point. -/
  allDigits_fraction : ∀ digits ∈ fraction, Decimal.allDigits digits = true

namespace PlainDecimal

variable (d : PlainDecimal)

/-- The point with the digits behind it. -/
def behind : List Char :=
  match d.fraction with
  | none => []
  | some digits => '.' :: digits

def text : List Char :=
  if d.negative then '-' :: (d.whole ++ d.behind) else d.whole ++ d.behind

/-- The digits behind the point. -/
def places : List Char := d.fraction.getD []

/-- The number that is written. -/
def toRat : ℚ :=
  let magnitude : ℚ := Decimal.ofDigits (d.whole ++ d.places) / 10 ^ d.places.length
  if d.negative then -magnitude else magnitude

/-- **The decimal is read as this double:** it is what the number is rounded to, and it has the sign
that is written, also if it is a zero. -/
structure Reads (v : Float) : Prop where
  /-- The double is nearest to the number. -/
  rounds : Double.Rounds d.toRat v.toModel.unpack
  /-- The sign is that which is written, also of a zero. -/
  isNegative : Double.isNegative v = d.negative

/-- There is only one such double. -/
theorem Reads.eq {d : PlainDecimal} {v w : Float} (hv : d.Reads v) (hw : d.Reads w) : v = w :=
  hv.rounds.eq hw.rounds (hv.isNegative.trans hw.isNegative.symm)

/-- The double that is computed. -/
def value : Float :=
  let magnitude := Decimal.nearest d.whole d.places 0
  if d.negative then -magnitude else magnitude

/-- **The double that is computed** is the one that the decimal is read as. -/
theorem reads_value : d.Reads d.value := by
  have hround := Decimal.rounds_nearest d.whole d.places
  have hsign : Double.isNegative (Decimal.nearest d.whole d.places 0) = false :=
    Double.isNegative_ofScientific _ _ _
  -- the magnitude is rounded, and then the sign is put in front
  cases hneg : d.negative with
  | true =>
    refine ⟨?_, ?_⟩
    · rw [toRat, value, hneg, if_pos rfl, if_pos rfl]
      exact Double.rounds_float_neg hround
    · rw [value, hneg, if_pos rfl]
      exact Double.isNegative_neg hround.isNumber hsign
  | false =>
    refine ⟨?_, ?_⟩
    · rw [toRat, value, hneg, if_neg Bool.false_ne_true, if_neg Bool.false_ne_true]
      exact hround
    · rw [value, hneg, if_neg Bool.false_ne_true]
      exact hsign

theorem allDigits_places : Decimal.allDigits d.places = true := by
  cases hfraction : d.fraction with
  | none =>
    rw [places, hfraction]
    rfl
  | some digits =>
    rw [places, hfraction]
    exact d.allDigits_fraction digits hfraction

/-- In a plain decimal stand digits, a point and a minus. -/
theorem of_mem_text {c : Char} (hc : c ∈ d.text) : c = '-' ∨ c = '.' ∨ c.isDigit = true := by
  -- a minus stands at the beginning only
  have hunsigned (hc : c ∈ d.whole ++ d.behind) : c = '.' ∨ c.isDigit = true := by
    rcases List.mem_append.mp hc with hc | hc
    · exact .inr (List.all_eq_true.mp d.allDigits_whole c hc)
    · unfold behind at hc
      cases hfraction : d.fraction with
      | none =>
        rw [hfraction] at hc
        cases hc
      | some digits =>
        rw [hfraction] at hc
        rcases List.mem_cons.mp hc with rfl | hc
        · exact .inl rfl
        · exact .inr (List.all_eq_true.mp (d.allDigits_fraction digits hfraction) c hc)
  unfold text at hc
  split at hc
  · rcases List.mem_cons.mp hc with rfl | hc
    · exact .inl rfl
    · exact .inr (hunsigned hc)
  · exact .inr (hunsigned hc)

theorem isBlank_of_mem_text {c : Char} (hc : c ∈ d.text) : Text.isBlank c = false := by
  rcases d.of_mem_text hc with rfl | rfl | hdigit
  · decide
  · decide
  · exact Text.isBlank_of_isAlphanum (by rw [Char.isAlphanum, hdigit, Bool.or_true])

/-- Nothing is trimmed from a decimal. -/
theorem trim_text : Text.trim d.text = d.text :=
  Text.trim_eq_self (fun _ hc => d.isBlank_of_mem_text (List.mem_of_mem_head? hc))
    fun _ hc => d.isBlank_of_mem_text (List.mem_of_mem_getLast? hc)

theorem splitPoint_eq : Decimal.splitPoint (d.whole ++ d.behind) = (d.whole, d.places) := by
  have hpoint := Decimal.not_mem_of_allDigits d.allDigits_whole
  unfold behind places
  cases d.fraction with
  | none =>
    dsimp only
    rw [List.append_nil, Decimal.splitPoint_of_not_mem hpoint]
    rfl
  | some digits => exact Decimal.splitPoint_append hpoint digits

end PlainDecimal

/-- The value of a decimal whose sign was read. -/
def unsigned? (negative : Bool) (text : List Char) : Option Float :=
  let (whole, fraction) := Decimal.splitPoint text
  if !whole.isEmpty && Decimal.allDigits whole && Decimal.allDigits fraction then
    let magnitude := Decimal.nearest whole fraction 0
    some (if negative then -magnitude else magnitude)
  else none

/-- A minus is taken off first. -/
theorem decimal?_cons (c : Char) (rest : List Char) : decimal? (c :: rest) =
    if c = '-' then unsigned? true rest else unsigned? false (c :: rest) := by
  by_cases hc : c = '-'
  · subst hc
    rfl
  · rw [if_neg hc]
    unfold decimal? unsigned?
    simp [hc]

/-- The digits of a decimal are read as its value. -/
theorem unsigned?_text (d : PlainDecimal) :
    unsigned? d.negative (d.whole ++ d.behind) = some d.value := by
  have hempty : d.whole.isEmpty = false := List.isEmpty_eq_false_iff.mpr d.whole_ne_nil
  rw [unsigned?, d.splitPoint_eq]
  dsimp only
  rw [hempty, d.allDigits_whole, d.allDigits_places]
  rfl

/-- What is written is read. -/
theorem decimal?_text (d : PlainDecimal) : decimal? d.text = some d.value := by
  have hread := unsigned?_text d
  cases hneg : d.negative with
  | true =>
    rw [hneg] at hread
    rw [PlainDecimal.text, hneg, if_pos rfl, decimal?_cons, if_pos rfl, hread]
  | false =>
    rw [hneg] at hread
    rw [PlainDecimal.text, hneg, if_neg Bool.false_ne_true]
    -- the first character is a digit, and no minus
    obtain ⟨c, rest, hwhole⟩ := List.exists_cons_of_ne_nil d.whole_ne_nil
    have hdigit : c.isDigit = true :=
      List.all_eq_true.mp d.allDigits_whole c (hwhole ▸ List.mem_cons_self)
    have hne : c ≠ '-' := by
      rintro rfl
      exact absurd hdigit (by decide)
    rw [hwhole, List.cons_append] at hread ⊢
    rw [decimal?_cons, if_neg hne, hread]

/-- What is read is written. -/
theorem exists_of_unsigned? {negative : Bool} {run : List Char} {v : Float}
    (h : unsigned? negative run = some v) :
    ∃ d : PlainDecimal, d.negative = negative ∧ d.whole ++ d.behind = run ∧ v = d.value := by
  -- a point in the text splits it, and without one all of it is whole
  have hparts : ∃ fraction : Option (List Char),
      run = (Decimal.splitPoint run).1 ++ (match fraction with
        | none => []
        | some digits => '.' :: digits) ∧ (Decimal.splitPoint run).2 = fraction.getD [] := by
    cases hcut : Decimal.splitAt? '.' run with
    | none =>
      refine ⟨none, ?_, ?_⟩
      · rw [Decimal.splitPoint, hcut]
        exact (List.append_nil run).symm
      · rw [Decimal.splitPoint, hcut]
        rfl
    | some parts =>
      refine ⟨some parts.2, ?_, ?_⟩
      · rw [Decimal.splitPoint, hcut]
        exact Text.eq_of_splitAt? hcut
      · rw [Decimal.splitPoint, hcut]
        rfl
  obtain ⟨fraction, hrun, hplaces⟩ := hparts
  unfold unsigned? at h
  dsimp only at h
  split at h
  · next hdigits =>
    simp only [Bool.and_eq_true, Bool.not_eq_true', List.isEmpty_eq_false_iff] at hdigits
    rw [hplaces] at hdigits h
    refine ⟨⟨negative, _, fraction, hdigits.1.1, hdigits.1.2, fun digits hmem => ?_⟩, rfl,
      hrun.symm, (Option.some.inj h).symm⟩
    rw [Option.mem_def.mp hmem] at hdigits
    exact hdigits.2
  · cases h

/-- **A text is read as a decimal** exactly if it is the text of one. -/
theorem decimal?_eq_some_iff {text : List Char} {v : Float} :
    decimal? text = some v ↔ ∃ d : PlainDecimal, text = d.text ∧ d.Reads v := by
  constructor
  · intro h
    cases text with
    | nil => cases h
    | cons c rest =>
      rw [decimal?_cons] at h
      split at h
      · next hc =>
        obtain ⟨d, hneg, hrest, rfl⟩ := exists_of_unsigned? h
        refine ⟨d, ?_, d.reads_value⟩
        rw [PlainDecimal.text, hneg, if_pos rfl, hrest, hc]
      · obtain ⟨d, hneg, hrest, rfl⟩ := exists_of_unsigned? h
        refine ⟨d, ?_, d.reads_value⟩
        rw [PlainDecimal.text, hneg, if_neg Bool.false_ne_true, hrest]
  · rintro ⟨d, rfl, hv⟩
    rw [decimal?_text, hv.eq d.reads_value]

/-! ### Points -/

/-- **The text of a point:** two decimals in parentheses, with a comma between them. Blanks may
stand around the text and around each decimal. -/
def Written (text : List Char) (d e : PlainDecimal) : Prop :=
  ∃ left right, Padded d.text left ∧ Padded e.text right ∧
    Padded ('(' :: left ++ ',' :: right ++ [')']) text

/-- What is inside parentheses, with these around it, is the text. -/
theorem eq_of_insideParens? {text inside : List Char} (h : insideParens? text = some inside) :
    text = '(' :: inside ++ [')'] := by
  unfold insideParens? at h
  split at h
  · rename_i rest
    split at h
    · rename_i hlast
      obtain rfl := Option.some.inj h
      rw [List.cons_append, List.dropLast_append_getLast? ')' hlast]
    · cases h
  · cases h

theorem insideParens?_append (inside : List Char) :
    insideParens? ('(' :: inside ++ [')']) = some inside := by
  have hlast : (inside ++ [')']).getLast? = some ')' := List.getLast?_concat
  show (if (inside ++ [')']).getLast? = some ')' then some (inside ++ [')']).dropLast else none) = _
  rw [if_pos hlast, List.dropLast_concat]

/-- **What stands in the text of a point** besides blanks: parentheses, a comma, and what
stands in decimals. -/
theorem Written.of_mem {text : List Char} {d e : PlainDecimal} (h : Written text d e) {c : Char}
    (hc : c ∈ text) :
    Text.isBlank c = true ∨ c ∈ ['(', ')', ',', '-', '.'] ∨ c.isDigit = true := by
  obtain ⟨left, right, hleft, hright, htext⟩ := h
  -- each part is a decimal with blanks around it
  have hdecimal {d : PlainDecimal} {part : List Char} (hpart : Padded d.text part) (hc : c ∈ part) :
      Text.isBlank c = true ∨ c ∈ ['(', ')', ',', '-', '.'] ∨ c.isDigit = true := by
    rcases hpart.isBlank_or_mem hc with hblank | hc
    · exact .inl hblank
    · rcases d.of_mem_text hc with rfl | rfl | hdigit
      · exact .inr (.inl (by decide))
      · exact .inr (.inl (by decide))
      · exact .inr (.inr hdigit)
  rcases htext.isBlank_or_mem hc with hblank | hc
  · exact .inl hblank
  · simp only [List.cons_append, List.append_assoc, List.mem_cons, List.mem_append,
      List.not_mem_nil, or_false] at hc
    rcases hc with rfl | hc | rfl | hc | rfl
    · exact .inr (.inl (by decide))
    · exact hdecimal hleft hc
    · exact .inr (.inl (by decide))
    · exact hdecimal hright hc
    · exact .inr (.inl (by decide))

theorem comma_not_mem {d : PlainDecimal} {part : List Char} (h : Padded d.text part) :
    ',' ∉ part := by
  -- a comma is no blank, and it does not stand in decimals
  intro hc
  rcases h.isBlank_or_mem hc with hblank | hc
  · exact absurd hblank (by decide)
  · rcases d.of_mem_text hc with hc | hc | hc
    · exact absurd hc (by decide)
    · exact absurd hc (by decide)
    · exact absurd hc (by decide)

/-- **A text is read as a point** exactly if it is written as one, and what is read are its two
decimals. -/
theorem read?_eq_some_iff {text : List Char} {x y : Float} :
    read? text = some (x, y) ↔ ∃ d e, Written text d e ∧ d.Reads x ∧ e.Reads y := by
  constructor
  · intro h
    unfold read? at h
    simp only [Option.bind_eq_bind, Option.bind_eq_some_iff] at h
    obtain ⟨inside, hinside, ⟨left, right⟩, hcut, v, hv, w, hw, hpair⟩ := h
    obtain ⟨rfl, rfl⟩ := Prod.mk.inj (Option.some.inj hpair)
    obtain ⟨d, hleft, hd⟩ := decimal?_eq_some_iff.mp hv
    obtain ⟨e, hright, he⟩ := decimal?_eq_some_iff.mp hw
    -- from inside to outside, each cut is undone
    refine ⟨d, e, ⟨left, right, hleft ▸ padded_trim left, hright ▸ padded_trim right, ?_⟩, hd, he⟩
    have htrim := padded_trim text
    rw [eq_of_insideParens? hinside, Text.eq_of_splitAt? hcut, ← List.cons_append] at htrim
    exact htrim
  · rintro ⟨d, e, ⟨left, right, hleft, hright, htext⟩, hd, he⟩
    -- the text begins and ends with a parenthesis, so trimming takes off its blanks only
    have hinside : Text.trim text = '(' :: (left ++ ',' :: right) ++ [')'] := by
      rw [htext.trim_eq, Text.trim_eq_self, ← List.cons_append]
      · rintro c hc
        obtain rfl : '(' = c := Option.some.inj hc
        decide
      · rintro c hc
        rw [List.getLast?_concat] at hc
        obtain rfl : ')' = c := Option.some.inj hc
        decide
    have hread : decimal? (Text.trim left) = some x :=
      decimal?_eq_some_iff.mpr ⟨d, hleft.trim_eq.trans d.trim_text, hd⟩
    have hread' : decimal? (Text.trim right) = some y :=
      decimal?_eq_some_iff.mpr ⟨e, hright.trim_eq.trans e.trim_text, he⟩
    rw [read?, hinside, insideParens?_append]
    simp only [Option.bind_eq_bind, Option.bind_some,
      Text.splitAt?_append_cons (comma_not_mem hleft), hread, hread']
    rfl

theorem of_mem_point {text : List Char} {x y : Float} (h : read? text = some (x, y)) {c : Char}
    (hc : c ∈ text) :
    Text.isBlank c = true ∨ c ∈ ['(', ')', ',', '-', '.'] ∨ c.isDigit = true := by
  obtain ⟨d, e, hwritten, -⟩ := read?_eq_some_iff.mp h
  exact hwritten.of_mem hc

end PointLiteral

namespace Equation

open PointLiteral (Written PlainDecimal)

/-- What is no point for the reader is no point at all, whatever else it is. -/
theorem point?_compile (raw : String) (probe : Float) :
    (compile raw probe).point? = PointLiteral.read? raw.toList := by
  cases hpoint : PointLiteral.read? raw.toList with
  | some p =>
    -- the text is a point of the reader, an error or a form, and the last two are no points
    rw [compile_of_point hpoint]
    rfl
  | none =>
    cases hsplit : Form.split (Text.lowercase raw.toList) with
    | error cause =>
      rw [compile_of_error hpoint hsplit]
      rfl
    | ok form => rw [compile_of_form hpoint hsplit, point?_ofForm]

/-- **A text is a point exactly if it is written as one,** and the point is where its decimals
say. -/
theorem compile_point (raw : String) (probe : Float) :
    ((PointLiteral.read? raw.toList).isSome = true ↔ ∃ d e, Written raw.toList d e) ∧
      (∀ d e, Written raw.toList d e → ∃ x y, d.Reads x ∧ e.Reads y ∧
        PointLiteral.read? raw.toList = some (x, y) ∧
        compile raw probe = ⟨raw, .point x y, .ok .undefined, Parameter.Table.empty⟩) ∧
      ((compile raw probe).point?.isSome = true ↔ ∃ d e, Written raw.toList d e) := by
  have hwritten (d e : PlainDecimal) (h : Written raw.toList d e) :
      PointLiteral.read? raw.toList = some (d.value, e.value) :=
    PointLiteral.read?_eq_some_iff.mpr ⟨d, e, h, d.reads_value, e.reads_value⟩
  have hsome : (PointLiteral.read? raw.toList).isSome = true ↔ ∃ d e, Written raw.toList d e := by
    constructor
    · intro h
      obtain ⟨⟨x, y⟩, hread⟩ := Option.isSome_iff_exists.mp h
      obtain ⟨d, e, hwritten, -⟩ := PointLiteral.read?_eq_some_iff.mp hread
      exact ⟨d, e, hwritten⟩
    · rintro ⟨d, e, h⟩
      rw [hwritten d e h]
      rfl
  refine ⟨hsome, fun d e h => ?_, by rw [point?_compile, hsome]⟩
  exact ⟨d.value, e.value, d.reads_value, e.reads_value, hwritten d e h,
    compile_of_point (hwritten d e h)⟩

end Equation

end CurvePlot
