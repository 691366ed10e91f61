import CurvePlot.Proofs.Equation.Lettering
import CurvePlot.Proofs.Expr.FirstError
import CurvePlot.Proofs.Expr.Parentheses
import CurvePlot.Proofs.Token.Place
import CurvePlot.Proofs.Token.Seam
/-!
# What reported positions count

A cause for which a text cannot be compiled may name a position. The position counts in the part of
the text that could not be read, and there stands what the cause names (`Counted`): the reader does
not know where the part was cut out. Only what stands behind a restriction is counted in the whole
text.

So the position is true of the text as it was written (`CompileError.Reports`) where the part begins
with the text (`compile_position`), and behind a heading such as `y =` it is not
(`position_behind_heading`). There is more that keeps a position from being true:

* a relation is read as the difference of its sides, which has signs of its own;
* in the condition of a restriction every `and` and every comma is written as the connective, which
  is shorter or longer;
* some characters take fewer or more bytes in lower case (`Text.KeepsBytes`), and such a one may
  stand in front of the position;
* the blanks between a restriction and what stands behind it are not counted.

The crux is that the parts stand in the text, each behind what is in front of it and cut off from
what is behind it (`Form.body_stands`, `Form.condition_stands`). What is found in a part is then
found in the text (`CompileError.StandsAt.surround`). The reader of expressions gives the positions
of tokens only (`Expr.mem_of_parse_error`), and the tokens stand where they are said to stand
(`Token.first?_of_mem_scan`). A parenthesis that is named is the innermost one that is open at the
end, so behind it all that is opened is closed (`Expr.exists_of_enclosing`), in the tokens and in
the part that they come from.
-/

namespace CurvePlot

open CompileError (Separated)

/-! ### Expressions -/

namespace CompileError

/-- **The parenthesis at a position is open at the end of the text:** behind it, as many are closed
as are opened there, and it is none of these. -/
def LeavesOpen (text : List Char) (position : Nat) : Prop :=
  ∃ front inside, text = front ++ '(' :: inside ∧ Text.byteLength front = position ∧
    Parenthesis.depth? 0 (inside.filterMap Parenthesis.ofChar?) = some 0

/-- **What a cause says of a text is so:** at its position stands what it names, and a parenthesis
that it names is not closed. -/
structure FoundIn (e : CompileError) (text : List Char) : Prop where
  standsAt : e.StandsAt 0 text
  leavesOpen : ∀ position, e = .unmatchedParenthesis position → LeavesOpen text position

end CompileError

namespace Expr

open Front
open Token (Balanced)

variable {t : Parameter.Table} {text : List Char} {ts : List Placed} {e : CompileError} {i : Nat}

theorem enclosing_concat (opened : List Nat) (ts : List Placed) (p : Placed) :
    enclosing opened (ts ++ [p]) = enclosing (enclosing opened ts) [p] :=
  List.foldl_append

/-- **Behind the innermost parenthesis that is open, tokens are balanced,** and those in front of it
leave the other ones open. -/
theorem exists_of_enclosing {opened : List Nat} (h : enclosing [] ts = i :: opened) :
    ∃ us vs, ts = us ++ (.leftParen, i) :: vs ∧ Balanced (vs.map Prod.fst) ∧
      enclosing [] us = opened := by
  -- a pair at the end is left out as a whole, so the induction is on the length
  induction hn : ts.length using Nat.strongRecOn generalizing ts i opened with
  | ind n ih =>
    rcases List.eq_nil_or_concat ts with rfl | ⟨ts, ⟨x, j⟩, rfl⟩
    · cases h
    rw [List.concat_eq_append] at h hn ⊢
    rw [enclosing_concat] at h
    rw [List.length_append, List.length_singleton] at hn
    have hother (hx : Parenthesis.ofToken? x = none) (hkeeps : enclosing [] ts = i :: opened) :
        ∃ us vs, ts ++ [(x, j)] = us ++ (.leftParen, i) :: vs ∧ Balanced (vs.map Prod.fst) ∧
          enclosing [] us = opened := by
      obtain ⟨us, vs, rfl, hvs, hus⟩ := ih ts.length (by omega) hkeeps rfl
      refine ⟨us, vs ++ [(x, j)], by simp, ?_, hus⟩
      rw [List.map_append]
      exact hvs.append (Balanced.cons hx rfl)
    cases x with
    | leftParen =>
      obtain ⟨rfl, hrest⟩ := List.cons.inj h
      exact ⟨ts, [], rfl, rfl, hrest⟩
    | rightParen =>
      -- it closes the innermost one before, and the one in question was the next
      cases hopen : enclosing [] ts with
      | nil =>
        rw [hopen] at h
        cases h
      | cons k more =>
        rw [hopen] at h
        obtain rfl : more = i :: opened := h
        obtain ⟨us, vs, rfl, hvs, hus⟩ := ih ts.length (by omega) hopen rfl
        rw [List.length_append, List.length_cons] at hn
        obtain ⟨us, vs', rfl, hvs', hus⟩ := ih us.length (by omega) hus rfl
        refine ⟨us, vs' ++ (.leftParen, k) :: vs ++ [(.rightParen, j)], by simp, ?_, hus⟩
        simp only [List.map_append, List.map_cons, List.map_nil, List.append_assoc]
        exact hvs'.append hvs.parens
    | _ => exact hother rfl h

/-- **A position that reading tokens gives is that of a token,** of one that is unexpected or of a
parenthesis that is not closed. -/
theorem mem_of_parse_error (h : parse t ts = .error e) (hposition : e.position? = some i) :
    (∃ x, (x, i) ∈ ts ∧ e = .unexpectedToken i x.text) ∨
      (∃ us vs, ts = us ++ (.leftParen, i) :: vs ∧ Balanced (vs.map Prod.fst)) ∧
        e = .unmatchedParenthesis i := by
  have hne : ts ≠ [] := by
    rintro rfl
    obtain rfl := Except.error.inj h
    cases hposition
  rcases verdict_error ((verdict_eq_error hne).mpr h) with
    ⟨us, p, vs, f, rfl, -, hp⟩ | ⟨f, hts, hend⟩
  · rcases step_error hp with rfl | ⟨letters, -, -, -, rfl⟩
    · obtain rfl := Option.some.inj hposition
      exact .inl ⟨p.1, List.mem_append_right us List.mem_cons_self, rfl⟩
    · cases hposition
  · rcases finish_error hend with rfl | ⟨-, j, opened, hopened, rfl⟩
    · cases hposition
    · obtain rfl := Option.some.inj hposition
      have hopen : enclosing [] ts = j :: opened := (opened_of_advance hts).symm.trans hopened
      obtain ⟨us, vs, hsplit, hvs, -⟩ := exists_of_enclosing hopen
      exact .inr ⟨⟨us, vs, hsplit, hvs⟩, rfl⟩

/-- **A position that reading a text gives counts in this text,** and there stands what is said to
stand there. -/
theorem foundIn_of_read_error (h : read t text = .error e) (hposition : e.position? = some i) :
    e.FoundIn text := by
  unfold read at h
  cases hscan : Token.scan text with
  | error e' =>
    rw [hscan] at h
    obtain rfl := Except.error.inj h
    refine ⟨Token.standsAt_of_scan_error hscan, ?_⟩
    -- scanning does not look for parentheses
    rintro position rfl
    exact absurd rfl (Token.ne_unmatchedParenthesis_of_scan hscan position)
  | ok ts =>
    rw [hscan] at h
    rcases mem_of_parse_error h hposition with ⟨x, hmem, rfl⟩ | ⟨⟨us, vs, rfl, hvs⟩, rfl⟩
    · obtain ⟨front, rest, count, htext, hi, hfirst⟩ := Token.first?_of_mem_scan hscan hmem
      exact ⟨⟨front, rest, i, htext, rfl, by rw [hi, Nat.zero_add], .inr ⟨x, count, hfirst, rfl⟩⟩,
        nofun⟩
    · obtain ⟨front, inside, htext, hi, hinside⟩ := Token.leftParen_of_scan hscan
      refine ⟨⟨front, '(' :: inside, i, htext, rfl, by rw [hi, Nat.zero_add], rfl⟩, ?_⟩
      rintro position ⟨⟩
      refine ⟨front, inside, htext, hi, ?_⟩
      rw [hinside.brackets_eq]
      exact hvs

end Expr

/-! ### Forms -/

namespace Form

variable {text : List Char} {form : Form} {e : CompileError} {i : Nat}

/-- **The cause names what stands behind the last closing brace,** without the blanks around it, and
the position right behind the brace. -/
def InTail (text : List Char) (e : CompileError) : Prop :=
  ∃ front gap tail blanks, text = front ++ '\x7d' :: (gap ++ tail ++ blanks) ∧
    '\x7d' ∉ gap ++ tail ++ blanks ∧
    (∀ d ∈ gap, Text.isBlank d = true) ∧ (∀ d ∈ blanks, Text.isBlank d = true) ∧ tail ≠ [] ∧
    e = .unexpectedToken (Text.byteLength (front ++ ['\x7d'])) (String.ofList tail)

/-- The parts of a text make a form, unless there is nothing in front of the restriction. -/
theorem ofParts_eq_error {math : List Char} {limit : Option (List Char)}
    (h : ofParts math limit = .error e) : e = .empty := by
  unfold ofParts at h
  split at h
  · exact (Except.error.inj h).symm
  · split at h
    · cases h
    · split at h
      all_goals cases h

/-- **A text without a form has at most something behind its restriction.** -/
theorem inTail_of_split_error (h : split text = .error e) (hposition : e.position? = some i) :
    InTail text e := by
  rw [split_eq] at h
  cases hsplit : splitLimit text with
  | ok parts =>
    obtain ⟨math, limit⟩ := parts
    rw [hsplit] at h
    obtain rfl : e = .empty := ofParts_eq_error h
    cases hposition
  | error e' =>
    rw [hsplit] at h
    obtain rfl : e' = e := Except.error.inj h
    rcases splitLimit_eq_error hsplit with rfl | ⟨front, after, htext, hlast, htail, rfl⟩
    · cases hposition
    · obtain ⟨gap, blanks, hgap, hblanks, hafter⟩ := Text.exists_surrounding after
      refine ⟨front, gap, Text.trim after, blanks, ?_, ?_, hgap, hblanks, htail, ?_⟩
      · rw [← hafter]
        exact htext
      · rw [← hafter]
        exact hlast
      · have hbytes : Text.byteLength text =
            Text.byteLength (front ++ ['\x7d']) + Text.byteLength after := by
          rw [htext, ← Text.byteLength_append, List.append_assoc, List.singleton_append]
        rw [hbytes, Nat.add_sub_cancel]

/-- No token goes on behind blanks. -/
theorem separated_blanks_append {blanks rest : List Char}
    (hblanks : ∀ d ∈ blanks, Text.isBlank d = true) (hrest : Separated rest) :
    Separated (blanks ++ rest) := by
  cases blanks with
  | nil => exact hrest
  | cons d blanks =>
    intro c hc
    rw [← Option.some.inj hc]
    exact Token.separates_of_isBlank (hblanks d List.mem_cons_self)

/-- No token goes on behind a brace. -/
theorem separated_of_cutOff {behind : List Char} (h : CutOff behind) : Separated behind := by
  intro d hd
  rcases h d hd with hblank | rfl
  · exact Token.separates_of_isBlank hblank
  · exact ⟨rfl, rfl, by decide⟩

/-- The body is the difference of the two sides of a relation, and so no part of the text. -/
def IsDifference (form : Form) : Prop :=
  form.kind = .relation ∧ ∃ lhs rhs, form.body = difference lhs rhs

/-- **The body stands in the text,** cut off from what is behind it. -/
theorem body_stands (h : split text = .ok form) : form.IsDifference ∨
    ∃ before behind, text = before ++ form.body ++ behind ∧ Separated behind ∧
      (form.kind = .bare → ∀ d ∈ before, Text.isBlank d = true) := by
  rw [split_eq] at h
  cases hsplit : splitLimit text with
  | error e =>
    rw [hsplit] at h
    cases h
  | ok parts =>
    obtain ⟨math, limit⟩ := parts
    rw [hsplit] at h
    obtain ⟨pre, behind, rfl, hpre, hbehind, -⟩ := lone_of_splitLimit hsplit
    obtain ⟨-, hbody⟩ := ofParts_eq_ok h
    rcases hbody with ⟨body, hkind, hexplicit, hbody⟩ | hbody | ⟨lhs, rhs, hkind, -, hbody⟩
    · right
      obtain ⟨name, post, -, -, rfl, -⟩ := eq_of_explicitBody? hexplicit
      obtain ⟨gap, blanks, hgap, hblanks, heq⟩ := Text.exists_surrounding body
      refine ⟨pre ++ name ++ post ++ '=' :: gap, blanks ++ behind, ?_,
        separated_blanks_append hblanks (separated_of_cutOff hbehind), ?_⟩
      · rw [hbody]
        conv_lhs => rw [heq]
        simp only [List.append_assoc, List.cons_append]
      · intro hbare
        rw [hkind] at hbare
        cases hbare
    · right
      exact ⟨pre, behind, by rw [hbody], separated_of_cutOff hbehind, fun _ => hpre⟩
    · exact .inl ⟨hkind, lhs, rhs, hbody⟩

/-- **What the condition was written as stands in the text,** cut off from what is behind it. -/
theorem condition_stands {condition : List Char} (h : split text = .ok form)
    (hlimit : form.limit = some condition) : ∃ before inside behind,
      text = before ++ inside ++ behind ∧ Separated behind ∧ condition = joined inside := by
  rw [split_eq] at h
  cases hsplit : splitLimit text with
  | error e =>
    rw [hsplit] at h
    cases h
  | ok parts =>
    obtain ⟨math, limit⟩ := parts
    rw [hsplit] at h
    obtain rfl : limit = some condition := (ofParts_eq_ok h).1.symm.trans hlimit
    rcases splitLimit_eq_ok hsplit with ⟨-, hnone⟩ | ⟨front, inside, after, htext, -, -, hsome⟩
    · cases hnone
    · obtain ⟨gap, blanks, -, hblanks, hinside⟩ := Text.exists_surrounding inside
      refine ⟨front ++ '\x7b' :: gap, Text.trim inside, blanks ++ '\x7d' :: after, ?_, ?_, ?_⟩
      · rw [htext]
        conv_lhs => rw [hinside]
        simp only [List.append_assoc, List.cons_append]
      · refine separated_blanks_append hblanks fun d hd => ?_
        rw [← Option.some.inj hd]
        exact ⟨rfl, rfl, by decide⟩
      · split at hsome
        · cases hsome
        · exact Option.some.inj hsome

end Form

/-! ### Letter case -/

namespace Text

/-- The character takes as many bytes in lower case. -/
def KeepsBytes (c : Char) : Prop := byteLength (lowerChar c) = c.utf8Size

instance (c : Char) : Decidable (KeepsBytes c) := inferInstanceAs (Decidable (_ = _))

/-- All characters that begin in front of a position keep their bytes. -/
def KeepsBytesBefore (position : Nat) (text : List Char) : Prop :=
  ∀ front c rest, text = front ++ c :: rest → byteLength front < position → KeepsBytes c

/-- A character that keeps its bytes is one character in lower case. -/
theorem exists_lowerChar {c : Char} (hc : KeepsBytes c) : ∃ d : Char, lowerChar c = [d] := by
  unfold lowerChar
  split
  · exact ⟨_, rfl⟩
  · split
    · next hdotted =>
      -- the capital `I` with a dot becomes an `i` and a dot
      have hdotted' : c = Char.ofNat 0x130 := by rw [← hdotted, Char.ofNat_toNat]
      rw [hdotted'] at hc
      exact absurd hc (by decide)
    · dsimp only
      split
      · exact ⟨_, rfl⟩
      · exact ⟨_, rfl⟩

/-- So is a capital sigma, whether or not it ends a word. -/
theorem exists_lowered {c : Char} (hc : KeepsBytes c) (final : Bool) : ∃ d : Char,
    (if c.toNat = 0x3A3 then [Char.ofNat (if final then 0x3C2 else 0x3C3)] else lowerChar c) = [d] ∧
      d.utf8Size = c.utf8Size := by
  by_cases hsigma : c.toNat = 0x3A3
  · have hsigma' : c = Char.ofNat 0x3A3 := by rw [← hsigma, Char.ofNat_toNat]
    refine ⟨_, if_pos hsigma, ?_⟩
    rw [hsigma']
    cases final with
    | true => rfl
    | false => rfl
  · obtain ⟨d, hd⟩ := exists_lowerChar hc
    refine ⟨d, by rw [if_neg hsigma, hd], ?_⟩
    unfold KeepsBytes at hc
    rw [hd] at hc
    exact hc

/-- **Places of the text in lower case are places of the text,** as far as bytes are kept. -/
theorem exists_place {text front rest before : List Char}
    (hkeeps : KeepsBytesBefore (byteLength front) text)
    (h : lowercaseAfter before text = front ++ rest) : ∃ front' rest', text = front' ++ rest' ∧
      byteLength front' = byteLength front ∧
      lowercaseAfter (front'.reverse ++ before) rest' = rest := by
  -- what is in front is kept along, since a sigma looks back at it
  induction text generalizing front before with
  | nil =>
    obtain ⟨rfl, rfl⟩ := List.append_eq_nil_iff.mp h.symm
    exact ⟨[], [], rfl, rfl, rfl⟩
  | cons c text ih =>
    cases front with
    | nil => exact ⟨[], c :: text, rfl, rfl, h⟩
    | cons d front =>
      have hc : KeepsBytes c :=
        hkeeps [] c text rfl (Nat.lt_of_lt_of_le d.utf8Size_pos (Nat.le_add_right _ _))
      obtain ⟨d', hlowered, hbytes⟩ := exists_lowered hc (meetsLetter before && !meetsLetter text)
      have hcons : lowercaseAfter before (c :: text) = d' :: lowercaseAfter (c :: before) text := by
        rw [lowercaseAfter]
        exact congrArg (· ++ lowercaseAfter (c :: before) text) hlowered
      rw [hcons] at h
      obtain ⟨rfl, hrest⟩ := List.cons.inj h
      have hbehind : KeepsBytesBefore (byteLength front) text := by
        intro before' c' rest' htext hlt
        refine hkeeps (c :: before') c' rest' (by rw [htext]; rfl) ?_
        rw [byteLength, byteLength, hbytes]
        exact Nat.add_lt_add_left hlt _
      obtain ⟨front', rest', rfl, hfront, hlower⟩ := ih hbehind hrest
      refine ⟨c :: front', rest', rfl, ?_, ?_⟩
      · rw [byteLength, byteLength, hbytes, hfront]
      · rw [List.reverse_cons, List.append_assoc, List.singleton_append]
        exact hlower

end Text

/-- **The position is true of the text as it was written:** up to letter case, what the cause names
stands there. -/
def CompileError.Reports (e : CompileError) (raw : List Char) : Prop :=
  ∃ front rest, raw = front ++ rest ∧ e.position? = some (Text.byteLength front) ∧
    e.Heads (Text.lowercaseAfter front.reverse rest)

/-- **What stands in the text in lower case stands in the text,** if every character in front of it
keeps its bytes. -/
theorem CompileError.reports_of_standsAt {e : CompileError} {raw : List Char} {position : Nat}
    (hposition : e.position? = some position) (hkeeps : Text.KeepsBytesBefore position raw)
    (h : e.StandsAt 0 (Text.lowercase raw)) : e.Reports raw := by
  obtain ⟨front, rest, position', htext, hposition', hfront, hheads⟩ := h
  obtain rfl : position = position' := Option.some.inj (hposition.symm.trans hposition')
  rw [Nat.zero_add] at hfront
  rw [← hfront] at hkeeps
  obtain ⟨front', rest', hraw, hfront', hlower⟩ := Text.exists_place hkeeps htext
  rw [List.append_nil] at hlower
  refine ⟨front', rest', hraw, ?_, ?_⟩
  · rw [hposition, hfront', hfront]
  · rw [hlower]
    exact hheads

namespace Equation

/-- The part stands in the text, and what the cause names stands in the text further on, by what is
in front of the part. -/
def StandsWithin (part text : List Char) (e : CompileError) : Prop :=
  ∃ before behind, text = before ++ part ++ behind ∧ e.StandsAt (Text.byteLength before) text

/-- **Where the position of a cause counts:** in the part of the text that could not be read. -/
inductive Counted (text : List Char) (e : CompileError) : Prop where
  /-- Something stands behind the restriction, and the position is right behind the brace. -/
  | tail : Form.split text = .error e → Form.InTail text e → Counted text e
  /-- The body could not be read, and the position counts in it. -/
  | body {form : Form} : Form.split text = .ok form →
      Expr.read (parametersOf form) form.body = .error e → e.FoundIn form.body →
      form.IsDifference ∨ StandsWithin form.body text e → Counted text e
  /-- The condition could not be read, and the position counts in it, as it is once every `and` and
  every comma in it is the connective. -/
  | condition {form : Form} {math : Expr} {inside : List Char} : Form.split text = .ok form →
      Expr.read (parametersOf form) form.body = .ok math → inside <:+: text →
      form.limit = some (Form.joined inside) →
      Expr.read (parametersOf form) (Form.joined inside) = .error e →
      e.FoundIn (Form.joined inside) →
      (Form.joined inside = inside → StandsWithin inside text e) → Counted text e

variable {raw : String} {probe : Float} {e : CompileError} {position : Nat}

/-- What cannot be read of a form is its body or its condition. -/
theorem counted_of_readForm {text : List Char} {form : Form} (hsplit : Form.split text = .ok form)
    (h : readForm (parametersOf form) form = .error e) (hposition : e.position? = some position) :
    Counted text e := by
  unfold readForm at h
  split at h
  · next e' hbody =>
    obtain rfl := Except.error.inj h
    have hfound := Expr.foundIn_of_read_error hbody hposition
    refine .body hsplit hbody hfound ((Form.body_stands hsplit).imp_right ?_)
    rintro ⟨before, behind, htext, hbehind, -⟩
    refine ⟨before, behind, htext, ?_⟩
    rw [htext]
    exact hfound.standsAt.surround hbehind before
  · next math hbody =>
    split at h
    · cases h
    · next condition hlimit =>
      split at h
      · next e' hcondition =>
        obtain rfl := Except.error.inj h
        obtain ⟨before, inside, behind, htext, hbehind, rfl⟩ :=
          Form.condition_stands hsplit hlimit
        have hfound := Expr.foundIn_of_read_error hcondition hposition
        refine .condition hsplit hbody ⟨before, behind, htext.symm⟩ hlimit hcondition hfound ?_
        intro hplain
        -- nothing in it was written anew, so it stands in the text itself
        rw [hplain] at hfound
        refine ⟨before, behind, htext, ?_⟩
        rw [htext]
        exact hfound.standsAt.surround hbehind before
      · cases h

theorem counted_of_error (h : (compile raw probe).error? = some e)
    (hposition : e.position? = some position) : Counted (Text.lowercase raw.toList) e := by
  cases hpoint : PointLiteral.read? raw.toList with
  | some p =>
    rw [compile_of_point hpoint] at h
    cases h
  | none =>
    cases hsplit : Form.split (Text.lowercase raw.toList) with
    | error e' =>
      rw [compile_of_error hpoint hsplit] at h
      obtain rfl : e' = e := Option.some.inj h
      exact .tail hsplit (Form.inTail_of_split_error hsplit hposition)
    | ok form =>
      rw [compile_of_form hpoint hsplit] at h
      have hread : readForm (parametersOf form) form = .error e := by
        unfold ofForm at h
        dsimp only at h
        split at h
        · next e' he' =>
          obtain rfl : e' = e := Option.some.inj h
          exact he'
        · cases h
      exact counted_of_readForm hsplit hread hposition

/-- **What cannot be read is counted from the beginning of the text:** it is the body, and the body
begins the text, or no blank stands between the last closing brace and what is behind it. -/
inductive FromStart (text : List Char) : Prop where
  | body {form : Form} {e : CompileError} : Form.split text = .ok form → form.kind = .bare →
      Expr.read (parametersOf form) form.body = .error e →
      (∀ d, text.head? = some d → Text.isBlank d = false) → FromStart text
  | tail {e : CompileError} : Form.split text = .error e →
      (∀ front rest, text = front ++ '\x7d' :: rest → '\x7d' ∉ rest →
        ∀ d, rest.head? = some d → Text.isBlank d = false) → FromStart text

/-- What stands right behind the closing brace stands where it is said to. -/
theorem standsAt_of_inTail {text : List Char} (h : Form.InTail text e)
    (hblank : ∀ front rest, text = front ++ '\x7d' :: rest → '\x7d' ∉ rest →
      ∀ d, rest.head? = some d → Text.isBlank d = false) : e.StandsAt 0 text := by
  obtain ⟨front, gap, tail, blanks, htext, hlast, hgap, -, -, rfl⟩ := h
  -- what stands behind the brace begins there, or a blank would
  have hnil : gap = [] := by
    cases gap with
    | nil => rfl
    | cons d gap =>
      have hd := hblank front _ htext hlast d rfl
      rw [hgap d List.mem_cons_self] at hd
      cases hd
  refine ⟨front ++ ['\x7d'], tail ++ blanks, _, ?_, rfl, (Nat.zero_add _).symm, .inl ?_⟩
  · simp only [htext, hnil, List.nil_append, List.append_assoc, List.singleton_append]
  · rw [String.toList_ofList]
    exact List.prefix_append tail blanks

/-- What is counted from the beginning of the text stands there. -/
theorem Counted.standsAt {text : List Char} (h : Counted text e) (hstart : FromStart text) :
    e.StandsAt 0 text := by
  cases hstart with
  | @body form e' hsplit hbare hbody hhead =>
    -- the body is read first, so the cause is found in it
    have hstands : e.StandsAt 0 form.body := by
      cases h with
      | tail hsplit' _ =>
        rw [hsplit] at hsplit'
        cases hsplit'
      | body hsplit' _ hfound _ =>
        obtain rfl := Except.ok.inj (hsplit.symm.trans hsplit')
        exact hfound.standsAt
      | condition hsplit' hread _ _ _ _ _ =>
        obtain rfl := Except.ok.inj (hsplit.symm.trans hsplit')
        rw [hbody] at hread
        cases hread
    rcases Form.body_stands hsplit with ⟨hrelation, -⟩ | ⟨before, behind, rfl, hbehind, hbefore⟩
    · rw [hbare] at hrelation
      cases hrelation
    · -- no blank is in front, so nothing is
      have hnil : before = [] := by
        cases before with
        | nil => rfl
        | cons d before =>
          have hblank := hbefore hbare d List.mem_cons_self
          rw [hhead d rfl] at hblank
          cases hblank
      rw [hnil]
      exact hstands.surround hbehind []
  | tail hsplit hblank =>
    cases h with
    | tail _ htail => exact standsAt_of_inTail htail hblank
    | body hsplit' _ _ _ =>
      rw [hsplit] at hsplit'
      cases hsplit'
    | condition hsplit' _ _ _ _ _ _ =>
      rw [hsplit] at hsplit'
      cases hsplit'

/-- **What the position of a cause counts.** It counts in the part of the text that could not be
read, and if a parenthesis stands there, it is not closed in this part. The part stands in the text
unless it was written anew, and then the place is further on by what is in front of the part. So
the position is that of the text as it was written if the part is counted from the beginning, and if
no character in front of the position changes its bytes in lower case. -/
theorem compile_position (raw : String) (probe : Float) {e : CompileError} {position : Nat}
    (h : (compile raw probe).error? = some e) (hposition : e.position? = some position) :
    Counted (Text.lowercase raw.toList) e ∧
      (FromStart (Text.lowercase raw.toList) → Text.KeepsBytesBefore position raw.toList →
        e.Reports raw.toList) := by
  have hcounted := counted_of_error h hposition
  refine ⟨hcounted, ?_⟩
  intro hstart hkeeps
  exact CompileError.reports_of_standsAt hposition hkeeps (hcounted.standsAt hstart)

/-- A stray character in a sum, which is read from the beginning of the text. Behind it the sign of
the kelvin takes fewer bytes in lower case, which makes no difference. -/
theorem compile_position_sum :
    (compile "x+$\u212a" standardProbe).error? = some (.unexpectedCharacter 2 '$') ∧
      (CompileError.unexpectedCharacter 2 '$').Reports "x+$\u212a".toList := by
  have herror : (compile "x+$\u212a" standardProbe).error? =
      some (.unexpectedCharacter 2 '$') := by
    decide +kernel
  have hsplit : Form.split (Text.lowercase "x+$\u212a".toList) =
      .ok ⟨.bare, "x+$k".toList, none⟩ := by
    decide +kernel
  have hread : Expr.read (parametersOf ⟨.bare, "x+$k".toList, none⟩) "x+$k".toList =
      .error (.unexpectedCharacter 2 '$') := by
    decide +kernel
  have hstart : FromStart (Text.lowercase "x+$\u212a".toList) := by
    refine .body hsplit rfl hread ?_
    intro d hd
    obtain rfl := Option.some.inj hd
    decide +kernel
  have hkeeps : Text.KeepsBytesBefore 2 "x+$\u212a".toList := by
    intro front c rest htext hlt
    -- two characters begin in front of the second byte, and both are of one byte
    obtain _ | ⟨a, _ | ⟨b, front⟩⟩ := front
    · obtain ⟨rfl, -⟩ := List.cons.inj htext
      decide +kernel
    · obtain ⟨rfl, hrest⟩ := List.cons.inj htext
      obtain ⟨rfl, -⟩ := List.cons.inj hrest
      decide +kernel
    · have ha := a.utf8Size_pos
      have hb := b.utf8Size_pos
      simp only [Text.byteLength] at hlt
      omega
  exact ⟨herror, (compile_position "x+$\u212a" standardProbe herror rfl).2 hstart hkeeps⟩

/-- **Behind `y =` the position is not that of the text:** a stray character at its end is reported
at its beginning. -/
theorem position_behind_heading :
    (compile "y = $" standardProbe).error? = some (.unexpectedCharacter 0 '$') ∧
      ¬(CompileError.unexpectedCharacter 0 '$').Reports "y = $".toList := by
  constructor
  · decide +kernel
  · rintro ⟨front, rest, hraw, hbytes, hheads⟩
    obtain rfl : front = [] := Text.byteLength_eq_zero (Option.some.inj hbytes).symm
    obtain rfl : "y = $".toList = rest := hraw
    have hhead : (Text.lowercaseAfter [] "y = $".toList).head? = some 'y' := by decide +kernel
    rw [CompileError.Heads, List.reverse_nil, hhead] at hheads
    exact absurd (Option.some.inj hheads) (by decide)

end Equation

end CurvePlot
