import CurvePlot.Proofs.Equation.Normal
import CurvePlot.Proofs.Equation.Relation
/-!
# Letters that stand alone

A letter that can name a parameter names one wherever it stands alone, with no letter next
to it: a reserved name is longer than one letter (`Parameter.mem_letters_of_lone`). But the letters are
not looked for in the text itself. It is trimmed and cut at braces and equality signs, the
sides of a relation are put in parentheses, and every `and` of a restriction becomes a
sign. All of this happens where there are no letters, or to whole words, so a letter that
stands alone stays alone. It is lost only with a part that is thrown away, and the only
letters thrown away are those of `y =` and `f(x) =`.

So a letter that stands alone, and not just in the `f` of a heading `f(x) =`
(`StandsAlone`), is a parameter of the text if the text has a form at all
(`Equation.get?_compile_of_standsAlone`). A text without a form has no parameters.
-/

namespace CurvePlot

namespace Text

/-- The text does not end with a letter. -/
def EndsFree (text : List Char) : Prop := ∀ d, text.getLast? = some d → d.isAlpha = false

/-- The text does not begin with a letter. -/
def BeginsFree (text : List Char) : Prop := ∀ d, text.head? = some d → d.isAlpha = false

/-- **The letter stands in the text with no letter next to it.** -/
def Lone (c : Char) (text : List Char) : Prop :=
  ∃ before after, text = before ++ c :: after ∧ EndsFree before ∧ BeginsFree after

/-- The text has a heading `f(x) =`, and the rest stands behind it. A second equality sign
would make a comparison of the first. -/
def Headed (text rest : List Char) : Prop :=
  ∃ pre post, (∀ c ∈ pre, isBlank c = true) ∧ (∀ c ∈ post, isBlank c = true) ∧
    text = pre ++ ['f', '(', 'x', ')'] ++ post ++ '=' :: rest ∧ rest.head? ≠ some '='

/-- **The letter stands alone in the text,** and not just as the `f` of its heading. -/
def StandsAlone (c : Char) (text : List Char) : Prop :=
  Lone c text ∧ ∀ rest, Headed text rest → Lone c rest

variable {c d : Char} {text pre post lhs rhs : List Char}

/-- No letter is a blank. -/
theorem isBlank_of_isAlpha (hc : c.isAlpha = true) : isBlank c = false :=
  isBlank_of_isAlphanum (by rw [Char.isAlphanum, hc, Bool.true_or])

/-- No letter is among blanks. -/
theorem not_mem_of_isBlank (hc : c.isAlpha = true) (hpre : ∀ d ∈ pre, isBlank d = true) :
    c ∉ pre := fun hmem =>
  Bool.false_ne_true ((isBlank_of_isAlpha hc).symm.trans (hpre c hmem))

/-- The empty text does not end with a letter. -/
theorem endsFree_nil : EndsFree [] := by
  intro d hd
  cases hd

/-- A text does not begin with a letter if its first character is none. -/
theorem beginsFree_cons (hd : d.isAlpha = false) (text : List Char) : BeginsFree (d :: text) := by
  intro e he
  rw [← Option.some.inj he]
  exact hd

/-- A text does not end with a letter if its last character is none. -/
theorem endsFree_concat (hd : d.isAlpha = false) (text : List Char) : EndsFree (text ++ [d]) := by
  intro e he
  rw [List.getLast?_concat] at he
  rw [← Option.some.inj he]
  exact hd

/-- What does not end with a letter is nothing, or a text and then no letter. -/
theorem EndsFree.eq_nil_or_concat (h : EndsFree text) :
    text = [] ∨ ∃ init d, text = init ++ [d] ∧ d.isAlpha = false := by
  rcases List.eq_nil_or_concat text with hnil | ⟨init, d, rfl⟩
  · exact .inl hnil
  · rw [List.concat_eq_append] at h ⊢
    exact .inr ⟨init, d, rfl, h d List.getLast?_concat⟩

/-- Two texts without a letter at the end make a text without one. -/
theorem EndsFree.append (hl : EndsFree lhs) (hr : EndsFree rhs) : EndsFree (lhs ++ rhs) := by
  intro d hd
  rw [List.getLast?_append, Option.or_eq_some_iff] at hd
  rcases hd with hd | ⟨-, hd⟩
  · exact hr d hd
  · exact hl d hd

/-- The end of a text is the end of every part behind. -/
theorem EndsFree.of_append (h : EndsFree (lhs ++ rhs)) : EndsFree rhs := by
  intro d hd
  apply h d
  rw [List.getLast?_append, hd, Option.some_or]

/-- Two texts without a letter at the beginning make a text without one. -/
theorem BeginsFree.append (hl : BeginsFree lhs) (hr : BeginsFree rhs) :
    BeginsFree (lhs ++ rhs) := by
  intro d hd
  rw [List.head?_append, Option.or_eq_some_iff] at hd
  rcases hd with hd | ⟨-, hd⟩
  · exact hl d hd
  · exact hr d hd

/-- The beginning of a text is the beginning of every part in front. -/
theorem BeginsFree.of_append (h : BeginsFree (lhs ++ rhs)) : BeginsFree lhs := by
  intro d hd
  apply h d
  rw [List.head?_append, hd, Option.some_or]

namespace Lone

/-- A letter that stands alone in a text is one of its characters. -/
theorem mem (h : Lone c text) : c ∈ text := by
  obtain ⟨before, after, rfl, -, -⟩ := h
  exact List.mem_append_right before List.mem_cons_self

/-- With less text around it, a letter still stands alone. -/
theorem of_append_left (h : Lone c (pre ++ text)) (hc : c ∉ pre) : Lone c text := by
  obtain ⟨before, after, heq, hbefore, hafter⟩ := h
  rcases List.append_eq_append_iff.mp heq with ⟨r, rfl, rfl⟩ | ⟨r, rfl, hrest⟩
  · exact ⟨r, after, rfl, hbefore.of_append, hafter⟩
  · cases r with
    | nil => exact ⟨[], after, hrest.symm, endsFree_nil, hafter⟩
    | cons d r =>
      obtain ⟨rfl, -⟩ := List.cons.inj hrest
      exact absurd (List.mem_append_right before List.mem_cons_self) hc

/-- The same holds at the end. -/
theorem of_append_right (h : Lone c (text ++ post)) (hc : c ∉ post) : Lone c text := by
  obtain ⟨before, after, heq, hbefore, hafter⟩ := h
  rcases List.append_eq_append_iff.mp heq with ⟨r, rfl, rfl⟩ | ⟨r, rfl, hrest⟩
  · -- the letter is in what was cut off
    exact absurd (List.mem_append_right r List.mem_cons_self) hc
  · cases r with
    | nil =>
      obtain rfl : c :: after = post := hrest
      exact absurd List.mem_cons_self hc
    | cons d r =>
      obtain ⟨rfl, rfl⟩ := List.cons.inj hrest
      exact ⟨before, r, rfl, hbefore, hafter.of_append⟩

/-- Where a text is cut at another character, the letter is in one of the parts. -/
theorem cut (h : Lone c (lhs ++ d :: rhs)) (hd : c ≠ d) : Lone c lhs ∨ Lone c rhs := by
  obtain ⟨before, after, heq, hbefore, hafter⟩ := h
  rcases Expr.append_cons_cases heq with ⟨r, rfl, rfl⟩ | ⟨-, rfl, -⟩ | ⟨r, rfl, rfl⟩
  · -- left of the cut
    exact .inl ⟨before, r, rfl, hbefore, hafter.of_append⟩
  · exact absurd rfl hd
  · -- right of it, where the cut is in front of the letter and may stay there
    rw [← List.singleton_append, ← List.append_assoc] at hbefore
    exact .inr ⟨r, after, rfl, hbefore.of_append, hafter⟩

/-- A letter stays alone between signs. -/
theorem surround (h : Lone c text) (hl : EndsFree lhs) (hr : BeginsFree rhs) :
    Lone c (lhs ++ text ++ rhs) := by
  obtain ⟨before, after, rfl, hbefore, hafter⟩ := h
  exact ⟨lhs ++ before, after ++ rhs, by simp, hl.append hbefore, hafter.append hr⟩

/-- Blanks around a text do not matter to its letters. -/
theorem trim (h : Lone c text) (hc : c.isAlpha = true) : Lone c (trim text) := by
  obtain ⟨pre, post, hpre, hpost, htext⟩ := exists_surrounding text
  rw [htext] at h
  have hfront : Lone c (pre ++ Text.trim text) := h.of_append_right (not_mem_of_isBlank hc hpost)
  exact hfront.of_append_left (not_mem_of_isBlank hc hpre)

/-- Where no heading begins, a letter only needs to have no letter next to it. -/
theorem standsAlone (h : Lone c (d :: text)) (hblank : isBlank d = false) (hd : d ≠ 'f') :
    StandsAlone c (d :: text) := by
  refine ⟨h, ?_⟩
  rintro rest ⟨pre, post, hpre, -, htext, -⟩
  cases pre with
  | nil => exact absurd (List.cons.inj htext).1 hd
  | cons e pre =>
    -- a heading behind blanks, and the text begins with none
    obtain rfl : d = e := (List.cons.inj htext).1
    exact absurd (hblank.symm.trans (hpre d List.mem_cons_self)) Bool.false_ne_true

end Lone

end Text

open Text

/-! ### Reserved names and connectives -/

namespace Parameter

/-- No reserved name is a single letter. -/
theorem length_of_mem_reservedNames : ∀ name ∈ Elementary.reservedNames, 2 ≤ name.length := by
  decide +kernel

variable {c : Char} {text : List Char}

/-- A letter that can name a parameter is found where it stands by itself. -/
theorem letters_of_isName (hc : isName c = true) : letters [c] = [c] := by
  have hnone : Elementary.reservedNames.find? (·.isPrefixOf [c]) = none := by
    rw [List.find?_eq_none]
    -- a reserved name is too long to stand in front
    intro name hname hbegins
    have hshort := (List.isPrefixOf_iff_prefix.mp hbegins).length_le
    have hlong := length_of_mem_reservedNames name hname
    rw [List.length_singleton] at hshort
    omega
  rw [letters_of_find?_eq_none hnone, if_pos hc, letters]

/-- Only letters name parameters. -/
theorem isAlpha_of_isName (hc : isName c = true) : c.isAlpha = true := by
  unfold isName at hc
  simp only [Bool.and_eq_true] at hc
  exact isAlpha_of_isLower hc.1.1.1

/-- **A letter that stands alone is found,** if it can name a parameter. -/
theorem mem_letters_of_lone (hc : isName c = true) (h : Lone c text) : c ∈ letters text := by
  obtain ⟨before, after, rfl, hbefore, hafter⟩ := h
  have hfound : letters (c :: after) = c :: letters after :=
    calc letters ([c] ++ after) = letters [c] ++ letters after := letters_append hafter [c]
      _ = c :: letters after := by rw [letters_of_isName hc, List.singleton_append]
  rcases hbefore.eq_nil_or_concat with rfl | ⟨init, d, rfl, hd⟩
  · -- the letter is the first character
    rw [List.nil_append, hfound]
    exact List.mem_cons_self
  · -- no reserved name reaches over the sign in front of the letter
    rw [List.append_assoc, List.singleton_append, letters_append (beginsFree_cons hd _),
      letters_cons_of_not_lower (Token.not_lower_of_not_alpha hd), hfound]
    exact List.mem_append_right _ List.mem_cons_self

end Parameter

namespace Form

variable {c : Char} {text : List Char}

/-- The word `and` does not reach over what is no letter. -/
theorem joined_append {rest : List Char} (hrest : BeginsFree rest) (start : List Char) :
    joined (start ++ rest) = joined start ++ joined rest := by
  have hand (start : List Char) : ['a', 'n', 'd'].isPrefixOf (start ++ rest) =
      ['a', 'n', 'd'].isPrefixOf start :=
    Parameter.isPrefixOf_append_of_alpha (List.all_eq_true.mp rfl) start hrest
  -- the induction follows the search for connectives, with a case for each of them and one for all
  -- the rest
  induction start using joined.induct with
  | case1 => rfl
  | case2 start ih => exact congrArg ('&' :: '&' :: ·) ih
  | case3 start _ ih => exact congrArg ('&' :: '&' :: ·) ih
  | case4 c start hword hcomma ih =>
    have hnot : ['a', 'n', 'd'].isPrefixOf (c :: start) = false := by
      refine Bool.eq_false_iff.mpr fun h => ?_
      obtain ⟨behind, hbehind⟩ := List.isPrefixOf_iff_prefix.mp h
      obtain ⟨hc, hstart⟩ := List.cons.inj hbehind
      exact hword behind hc.symm hstart.symm
    have hwhole := hand (c :: start)
    rw [hnot, List.cons_append] at hwhole
    rw [List.cons_append, joined_cons, joined_cons, hwhole, hnot, if_neg Bool.false_ne_true,
      if_neg Bool.false_ne_true, if_neg hcomma, if_neg hcomma, ih, List.cons_append]

/-- What becomes of a sign: a comma is a connective, and other signs stay. -/
def sign (d : Char) : List Char := if d = ',' then ['&', '&'] else [d]

/-- No sign is the beginning of a word. -/
theorem joined_cons_of_not_alpha {d : Char} (hd : d.isAlpha = false) (rest : List Char) :
    joined (d :: rest) = sign d ++ joined rest := by
  have hand : ['a', 'n', 'd'].isPrefixOf (d :: rest) = false := by
    refine Bool.eq_false_iff.mpr fun h => ?_
    obtain ⟨behind, hbehind⟩ := List.isPrefixOf_iff_prefix.mp h
    obtain ⟨rfl, -⟩ := List.cons.inj hbehind
    cases hd
  rw [joined_cons, hand, if_neg Bool.false_ne_true, sign]
  split <;> rfl

/-- What stands in the place of a sign begins and ends with a sign. -/
theorem sign_ends {d : Char} (hd : d.isAlpha = false) :
    (∃ e more, sign d = e :: more ∧ e.isAlpha = false) ∧
      ∃ init e, sign d = init ++ [e] ∧ e.isAlpha = false := by
  unfold sign
  split
  · exact ⟨⟨'&', ['&'], rfl, rfl⟩, ['&'], '&', rfl, rfl⟩
  · exact ⟨⟨d, [], rfl, hd⟩, [], d, rfl, hd⟩

/-- **A letter that stands alone stays alone** when connectives are written. -/
theorem lone_joined (hc : c.isAlpha = true) (h : Lone c text) : Lone c (joined text) := by
  obtain ⟨before, after, rfl, hbefore, hafter⟩ := h
  have hsingle : joined [c] = [c] := by
    have hcomma : c ≠ ',' := by
      rintro rfl
      cases hc
    rw [joined_cons, if_neg (by simp), if_neg hcomma, joined]
  have hletter : joined (c :: after) = c :: joined after :=
    calc joined ([c] ++ after) = joined [c] ++ joined after := joined_append hafter [c]
      _ = c :: joined after := by rw [hsingle, List.singleton_append]
  have hbehind : BeginsFree (joined after) := by
    cases after with
    | nil => exact hafter
    | cons d after =>
      -- whatever becomes of the sign behind the letter, it begins with a sign
      have hd : d.isAlpha = false := hafter d rfl
      obtain ⟨⟨e, more, hsign, he⟩, -⟩ := sign_ends hd
      rw [joined_cons_of_not_alpha hd, hsign]
      exact beginsFree_cons he _
  rcases hbefore.eq_nil_or_concat with rfl | ⟨init, d, rfl, hd⟩
  · -- the letter is the first character
    rw [List.nil_append, hletter]
    exact ⟨[], _, rfl, endsFree_nil, hbehind⟩
  · -- and so does what becomes of the sign in front of it end with one
    obtain ⟨-, start, e, hsign, he⟩ := sign_ends hd
    refine ⟨joined init ++ start ++ [e], joined after, ?_, endsFree_concat he _, hbehind⟩
    rw [List.append_assoc, List.singleton_append, joined_append (beginsFree_cons hd _),
      joined_cons_of_not_alpha hd, hletter, hsign]
    simp

/-! ### Cutting a text -/

/-- The two sides of a cut at the last such character, with it in between, are the text. -/
theorem eq_of_splitAtLast? {before after : List Char}
    (h : splitAtLast? c text = some (before, after)) : text = before ++ c :: after := by
  obtain ⟨⟨after', before'⟩, hcut, heq⟩ := Option.map_eq_some_iff.mp h
  obtain ⟨rfl, rfl⟩ := Prod.mk.inj heq
  -- the text was turned around, and cut at the first one
  have hreverse := congrArg List.reverse (Text.eq_of_splitAt? hcut)
  rw [List.reverse_reverse] at hreverse
  simpa using hreverse

/-- Behind the last such character there is none. -/
theorem not_mem_of_splitAtLast? {before after : List Char}
    (h : splitAtLast? c text = some (before, after)) : c ∉ after := by
  obtain ⟨⟨after', before'⟩, hcut, heq⟩ := Option.map_eq_some_iff.mp h
  obtain ⟨rfl, rfl⟩ := Prod.mk.inj heq
  unfold Decimal.splitAt? at hcut
  split at hcut
  · cases hcut
  · obtain ⟨rfl, rfl⟩ := Prod.mk.inj (Option.some.inj hcut)
    intro hmem
    have hne := List.mem_takeWhile_imp (List.mem_reverse.mp hmem)
    exact bne_iff_ne.mp hne rfl

/-- What begins a text and what is left of it are the text. -/
theorem eq_of_dropStart? {start rest : List Char} (h : dropStart? start text = some rest) :
    text = start ++ rest := by
  unfold dropStart? at h
  split at h
  · next hbegins =>
    obtain ⟨behind, rfl⟩ := List.isPrefixOf_iff_prefix.mp hbegins
    rw [List.drop_left] at h
    rw [Option.some.inj h]
  · cases h

/-- What stands in front of the value of a curve. -/
theorem eq_of_explicitBody? {math body : List Char} (h : explicitBody? math = some body) :
    ∃ name post, (name = ['f', '(', 'x', ')'] ∨ name = ['y']) ∧
      (∀ d ∈ post, isBlank d = true) ∧ math = name ++ post ++ '=' :: body ∧
        body.head? ≠ some '=' := by
  unfold explicitBody? at h
  simp only [Option.bind_eq_bind, Option.bind_eq_some_iff] at h
  obtain ⟨named, hnamed, rest, hrest, hbody⟩ := h
  split at hbody
  · cases hbody
  · next hhead =>
    obtain rfl := Option.some.inj hbody
    have hsplit : named = named.takeWhile isBlank ++ '=' :: rest := by
      rw [← List.singleton_append, ← eq_of_dropStart? hrest]
      exact List.takeWhile_append_dropWhile.symm
    -- the curve has either of two names, and both are dropped in the same way
    rw [Option.or_eq_some_iff] at hnamed
    have hname : ∃ name, (name = ['f', '(', 'x', ')'] ∨ name = ['y']) ∧ math = name ++ named := by
      rcases hnamed with hcurve | ⟨-, hheight⟩
      · exact ⟨_, .inl rfl, eq_of_dropStart? hcurve⟩
      · exact ⟨_, .inr rfl, eq_of_dropStart? hheight⟩
    obtain ⟨name, hname, rfl⟩ := hname
    refine ⟨name, named.takeWhile isBlank, hname, fun d hd => List.mem_takeWhile_imp hd, ?_, hhead⟩
    rw [List.append_assoc, ← hsplit]

/-- The text begins with a blank or with a brace, if at all. -/
def CutOff (text : List Char) : Prop := ∀ d, text.head? = some d → isBlank d = true ∨ d = '\x7b'

/-- No equality sign follows what stands in front. -/
theorem CutOff.head?_ne {rest : List Char} (h : CutOff rest) : rest.head? ≠ some '=' := by
  intro heq
  rcases h '=' heq with hblank | hbrace
  · exact absurd hblank (by decide)
  · exact absurd hbrace (by decide)

/-- Blanks may be cut off first. -/
theorem cutOff_blanks_append {post rest : List Char} (hpost : ∀ d ∈ post, isBlank d = true)
    (hrest : CutOff rest) : CutOff (post ++ rest) := by
  cases post with
  | nil => exact hrest
  | cons d post =>
    intro c hc
    rw [← Option.some.inj hc]
    exact .inl (hpost d List.mem_cons_self)

/-- A letter that stands alone behind the opening brace does so in the restriction. -/
theorem lone_restriction {inside after : List Char} (hblank : (trim after).isEmpty = true)
    (hc : c.isAlpha = true) (h : Lone c (inside ++ '\x7d' :: after)) : ∃ condition,
      (if (joined (trim inside)).isEmpty then none else some (joined (trim inside))) =
        some condition ∧ Lone c condition := by
  have hbrace : c ≠ '\x7d' := by
    rintro rfl
    cases hc
  rcases h.cut hbrace with hinside | hafter
  · have hcondition : Lone c (joined (trim inside)) := lone_joined hc (hinside.trim hc)
    have hsome : (joined (trim inside)).isEmpty = false := by
      refine Bool.eq_false_iff.mpr fun hempty => ?_
      have hmem := hcondition.mem
      rw [List.isEmpty_iff.mp hempty] at hmem
      cases hmem
    exact ⟨_, by rw [hsome, if_neg Bool.false_ne_true], hcondition⟩
  · -- behind the closing brace there are only blanks
    have hmem := (mem_trim (isBlank_of_isAlpha hc)).mpr hafter.mem
    rw [List.isEmpty_iff.mp hblank] at hmem
    cases hmem

/-- **The parts of a text:** all of it if it has no opening brace, and else what is in front of the
first one and what is between it and the last closing brace, with only blanks behind. -/
theorem splitLimit_eq_ok {math : List Char} {limit : Option (List Char)}
    (h : splitLimit text = .ok (math, limit)) : (math = trim text ∧ limit = none) ∨
      ∃ front inside after, text = front ++ '\x7b' :: (inside ++ '\x7d' :: after) ∧
        (trim after).isEmpty = true ∧ math = trim front ∧
        limit = if (joined (trim inside)).isEmpty then none else some (joined (trim inside)) := by
  unfold splitLimit at h
  split at h
  · -- there is no opening brace
    obtain ⟨rfl, rfl⟩ := Prod.mk.inj (Except.ok.inj h)
    exact .inl ⟨rfl, rfl⟩
  · next front rest hopening =>
    split at h
    · cases h
    · next inside after hclosing =>
      dsimp only at h
      split at h
      · next hblank =>
        obtain ⟨rfl, rfl⟩ := Prod.mk.inj (Except.ok.inj h)
        refine .inr ⟨front, inside, after, ?_, hblank, rfl, rfl⟩
        -- both cuts are undone
        rw [Text.eq_of_splitAt? hopening, eq_of_splitAtLast? hclosing]
      · cases h

/-- **A text that is not cut into parts** has no closing brace behind the opening one, or something
behind its last closing brace. -/
theorem splitLimit_eq_error {e : CompileError} (h : splitLimit text = .error e) :
    e = .unmatchedBrace ∨ ∃ front after, text = front ++ '\x7d' :: after ∧ '\x7d' ∉ after ∧
      trim after ≠ [] ∧
      e = .unexpectedToken (byteLength text - byteLength after) (String.ofList (trim after)) := by
  unfold splitLimit at h
  split at h
  · cases h
  · next front rest hopening =>
    split at h
    · -- nothing closes the brace
      exact .inl (Except.error.inj h).symm
    · next inside after hclosing =>
      dsimp only at h
      split at h
      · cases h
      · next htail =>
        refine .inr ⟨front ++ '\x7b' :: inside, after, ?_, not_mem_of_splitAtLast? hclosing, ?_,
          (Except.error.inj h).symm⟩
        · rw [Text.eq_of_splitAt? hopening, eq_of_splitAtLast? hclosing, List.append_assoc,
            List.cons_append]
        · intro hnil
          exact htail (List.isEmpty_iff.mpr hnil)

/-- **Nothing but blanks and braces is lost around the parts of a text.** What is cut off
behind the first part begins with one of these, and a letter that stands alone in it does so
in the restriction. -/
theorem lone_of_splitLimit {math : List Char} {limit : Option (List Char)}
    (h : splitLimit text = .ok (math, limit)) : ∃ pre behind,
      text = pre ++ math ++ behind ∧ (∀ d ∈ pre, isBlank d = true) ∧ CutOff behind ∧
        ∀ c part, c.isAlpha = true → Lone c (part ++ behind) →
          Lone c part ∨ ∃ condition, limit = some condition ∧ Lone c condition := by
  rcases splitLimit_eq_ok h with ⟨rfl, rfl⟩ | ⟨front, inside, after, htext, hblank, rfl, rfl⟩
  · -- no brace, and nothing is cut off but blanks
    obtain ⟨pre, post, hpre, hpost, htext⟩ := exists_surrounding text
    refine ⟨pre, post, htext, hpre, ?_, fun c part hc hlone => .inl ?_⟩
    · rw [← List.append_nil post]
      exact cutOff_blanks_append hpost nofun
    · exact hlone.of_append_right (not_mem_of_isBlank hc hpost)
  · obtain ⟨pre, post, hpre, hpost, hfront⟩ := exists_surrounding front
    -- the blanks in front of the brace are cut off with it
    refine ⟨pre, post ++ '\x7b' :: (inside ++ '\x7d' :: after), ?_, hpre, ?_, ?_⟩
    · rw [htext, ← List.append_assoc, ← hfront]
    · refine cutOff_blanks_append hpost fun d hd => .inr ?_
      exact (Option.some.inj hd).symm
    · -- the letter is on one side of the opening brace
      intro c part hc hlone
      have hbrace : c ≠ '\x7b' := by
        rintro rfl
        cases hc
      rw [← List.append_assoc] at hlone
      rcases hlone.cut hbrace with hpart | hrest
      · exact .inl (hpart.of_append_right (not_mem_of_isBlank hc hpost))
      · exact .inr (lone_restriction hblank hc hrest)

/-- A letter that stands alone in one of the sides does so in their difference. -/
theorem lone_difference {lhs rhs : List Char} (h : Lone c lhs ∨ Lone c rhs) :
    Lone c (difference lhs rhs) := by
  rcases h with hl | hr
  · -- each side stands between parentheses of its own
    have hbehind : BeginsFree ([')', '-', '('] ++ rhs ++ [')']) := beginsFree_cons rfl _
    have hfront : EndsFree ['('] := endsFree_concat rfl []
    have hlone := hl.surround hfront hbehind
    simpa [difference] using hlone
  · have hbehind : BeginsFree [')'] := beginsFree_cons rfl _
    have hfront : EndsFree ('(' :: lhs ++ [')', '-'] ++ ['(']) := endsFree_concat rfl _
    have hlone := hr.surround hfront hbehind
    simpa [difference] using hlone

/-- What a form makes of the text in front of the restriction. -/
theorem ofParts_eq_ok {math : List Char} {limit : Option (List Char)} {form : Form}
    (h : ofParts math limit = .ok form) : form.limit = limit ∧
      ((∃ body, form.kind = .explicit ∧ explicitBody? math = some body ∧ form.body = trim body) ∨
        form.body = math ∨
        ∃ lhs rhs, form.kind = .relation ∧ math = lhs ++ '=' :: rhs ∧
          form.body = difference lhs rhs) := by
  -- a text may be a curve, one side, two sides or more
  unfold ofParts at h
  split at h
  · cases h
  · split at h
    · next body hbody =>
      obtain rfl := Except.ok.inj h
      exact ⟨rfl, .inl ⟨body, rfl, hbody, rfl⟩⟩
    · split at h
      · obtain rfl := Except.ok.inj h
        exact ⟨rfl, .inr (.inl rfl)⟩
      · next lhs rhs hsides =>
        obtain rfl := Except.ok.inj h
        have hside : (lhs, rhs) ∈ equalities math := hsides ▸ List.mem_cons_self
        exact ⟨rfl, .inr (.inr ⟨lhs, rhs, rfl, (mem_equalities.mp hside).1, rfl⟩)⟩
      · obtain rfl := Except.ok.inj h
        exact ⟨rfl, .inr (.inl rfl)⟩

/-- What stands in front of the value of a curve is a heading, or holds no name of a
parameter. -/
theorem lone_of_explicitBody? {pre math behind body : List Char}
    (hexplicit : explicitBody? math = some body) (hpre : ∀ d ∈ pre, isBlank d = true)
    (hbehind : behind.head? ≠ some '=') (hc : Parameter.isName c = true)
    (h : StandsAlone c (pre ++ math ++ behind)) : Lone c (body ++ behind) := by
  have halpha : c.isAlpha = true := Parameter.isAlpha_of_isName hc
  obtain ⟨name, post, hname, hpost, rfl, hhead⟩ := eq_of_explicitBody? hexplicit
  rcases hname with rfl | rfl
  · -- this is a heading, and the letter was told to stand behind it
    refine h.2 _ ⟨pre, post, hpre, hpost, by simp, ?_⟩
    cases body with
    | nil => exact hbehind
    | cons d body => exact hhead
  · -- `y` names no parameter, so the letter is not in front of the sign
    have hlone : Lone c ((pre ++ ['y'] ++ post ++ ['=']) ++ (body ++ behind)) := by
      simpa using h.1
    apply hlone.of_append_left
    intro hmem
    simp only [List.mem_append, List.mem_singleton] at hmem
    rcases hmem with ((hmem | rfl) | hmem) | rfl
    · exact not_mem_of_isBlank halpha hpre hmem
    · cases hc
    · exact not_mem_of_isBlank halpha hpost hmem
    · cases hc

/-- **A letter that stands alone in a text does so in its form,** in the body or in the
restriction. -/
theorem lone_of_split {form : Form} (hform : split text = .ok form)
    (hc : Parameter.isName c = true) (h : StandsAlone c text) :
    Lone c form.body ∨ ∃ condition, form.limit = some condition ∧ Lone c condition := by
  have halpha : c.isAlpha = true := Parameter.isAlpha_of_isName hc
  rw [split_eq] at hform
  cases hsplit : splitLimit text with
  | error e =>
    rw [hsplit] at hform
    cases hform
  | ok parts =>
    obtain ⟨math, limit⟩ := parts
    rw [hsplit] at hform
    obtain ⟨pre, behind, rfl, hpre, hbehind, hparts⟩ := lone_of_splitLimit hsplit
    obtain ⟨rfl, hbody⟩ := ofParts_eq_ok hform
    -- nothing but blanks is in front of the first part
    have hwhole : Lone c math ∨ ∃ condition, form.limit = some condition ∧ Lone c condition := by
      apply hparts c math halpha
      have hlone := h.1
      rw [List.append_assoc] at hlone
      exact hlone.of_append_left (not_mem_of_isBlank halpha hpre)
    rcases hbody with ⟨body, -, hexplicit, hbody⟩ | hbody | ⟨lhs, rhs, -, rfl, hbody⟩
    · -- the value of a curve
      have hvalue : Lone c (body ++ behind) := lone_of_explicitBody? hexplicit hpre hbehind.head?_ne hc h
      rw [hbody]
      exact (hparts c body halpha hvalue).imp_left fun hlone => hlone.trim halpha
    · -- all of it
      rw [hbody]
      exact hwhole
    · -- two sides, and a letter in one of them
      have hsign : c ≠ '=' := by
        rintro rfl
        cases halpha
      rw [hbody]
      exact hwhole.imp_left fun hlone => lone_difference (hlone.cut hsign)

end Form

/-! ### Texts without letters -/

namespace Text

variable {c : Char} {text : List Char}

/-- Letters aside, an ASCII character is its own lower case. -/
theorem lowerChar_of_not_alpha (hascii : c.toNat < 0x80) (hc : c.isAlpha = false) :
    lowerChar c = [c] := by
  have hupper : c.isUpper = false := (Bool.or_eq_false_iff.mp hc).1
  have hlower : c.toLower = c := dif_neg (of_decide_eq_false hupper)
  rw [lowerChar, if_pos hascii, hlower]

/-- The figures are among the first of the ASCII characters. -/
theorem toNat_le_of_isDigit (h : c.isDigit = true) : c.toNat ≤ 57 := by
  unfold Char.isDigit at h
  rw [Bool.and_eq_true, decide_eq_true_eq, decide_eq_true_eq] at h
  exact UInt32.le_iff_toNat_le.mp h.2

/-- A text whose characters have no case is its own lower case. -/
theorem lowercase_eq_self (h : ∀ d ∈ text, lowerChar d = [d] ∧ d.toNat ≠ 0x3A3) :
    lowercase text = text := by
  -- the form of a sigma looks back, so the induction is over what has been read
  have hafter (before text : List Char) (h : ∀ d ∈ text, lowerChar d = [d] ∧ d.toNat ≠ 0x3A3) :
      lowercaseAfter before text = text := by
    induction text generalizing before with
    | nil => rfl
    | cons d text ih =>
      obtain ⟨hlower, hsigma⟩ := h d List.mem_cons_self
      rw [lowercaseAfter, if_neg hsigma, hlower, ih _ fun e he => h e (List.mem_cons_of_mem d he)]
      rfl
  exact hafter [] text h

end Text

/-- **The text of a point has no letters,** in whatever case. -/
theorem PointLiteral.read?_of_letter {text : List Char} {c : Char} (hc : c.isAlpha = true)
    (h : c ∈ lowercase text) : read? text = none := by
  refine Option.eq_none_iff_forall_ne_some.mpr fun (x, y) hread => ?_
  have hsigns : ['(', ')', ',', '-', '.'].all fun d => d.toNat < 0x80 ∧ d.isAlpha = false := rfl
  have hfigure (d : Char) (hd : d ∈ text) :
      lowerChar d = [d] ∧ d.toNat ≠ 0x3A3 ∧ d.isAlpha = false := by
    have hascii (hsmall : d.toNat < 0x80) (hnot : d.isAlpha = false) :
        lowerChar d = [d] ∧ d.toNat ≠ 0x3A3 ∧ d.isAlpha = false :=
      ⟨lowerChar_of_not_alpha hsmall hnot, by omega, hnot⟩
    rcases of_mem_point hread hd with hblank | hsign | hdigit
    · -- blanks need not be ASCII, but they have no case
      obtain ⟨hlower, hsigma, -, -⟩ := blank_facts (mem_blanks hblank)
      refine ⟨hlower, hsigma, Bool.eq_false_iff.mpr fun halpha => ?_⟩
      exact Bool.false_ne_true ((isBlank_of_isAlpha halpha).symm.trans hblank)
    · obtain ⟨hsmall, hnot⟩ := of_decide_eq_true (List.all_eq_true.mp hsigns d hsign)
      exact hascii hsmall hnot
    · have hnumeric : Token.isNumeric d = true := by
        rw [Token.isNumeric, hdigit, Bool.true_or]
      have hbound := toNat_le_of_isDigit hdigit
      exact hascii (by omega) (Token.not_alpha_of_isNumeric hnumeric)
  rw [lowercase_eq_self fun d hd => ⟨(hfigure d hd).1, (hfigure d hd).2.1⟩] at h
  exact Bool.false_ne_true ((hfigure c h).2.2.symm.trans hc)

/-! ### The parameters of a text -/

namespace Equation

variable {raw : String} {probe : Float} {c : Char}

/-- **The text has a form.** It may still be one that cannot be read. -/
def HasForm (raw : String) : Prop := ∃ form, Form.split (lowercase raw.toList) = .ok form

instance (raw : String) : Decidable (HasForm raw) :=
  match h : Form.split (lowercase raw.toList) with
  | .ok form => .isTrue ⟨form, h⟩
  | .error _ => .isFalse fun ⟨_, hform⟩ => nomatch h.symm.trans hform

/-- A letter that stands alone in the text of a form is a parameter of the form. -/
theorem contains_of_standsAlone {text : List Char} {form : Form}
    (hform : Form.split text = .ok form) (hc : Parameter.isName c = true)
    (h : StandsAlone c text) : (parametersOf form).contains c = true := by
  refine contains_parametersOf.mpr ?_
  rcases Form.lone_of_split hform hc h with hbody | ⟨condition, hlimit, hlone⟩
  · exact .inl (Parameter.mem_letters_of_lone hc hbody)
  · exact .inr ⟨condition, hlimit, Parameter.mem_letters_of_lone hc hlone⟩

/-- **A letter that stands alone in a text is a parameter of it** exactly if the text has a
form. Its slider stands where sliders start. -/
theorem get?_compile_of_standsAlone (hc : Parameter.isName c = true)
    (h : StandsAlone c (lowercase raw.toList)) (probe : Float) :
    (compile raw probe).parameters.get? c = if HasForm raw then some .standard else none := by
  have halpha : c.isAlpha = true := Parameter.isAlpha_of_isName hc
  have hpoint : PointLiteral.read? raw.toList = none := PointLiteral.read?_of_letter halpha h.1.mem
  cases hsplit : Form.split (lowercase raw.toList) with
  | error e =>
    have hnot : ¬ HasForm raw := by
      rintro ⟨form, hform⟩
      cases hsplit.symm.trans hform
    rw [compile_of_error hpoint hsplit, if_neg hnot]
    rfl
  | ok form =>
    rw [compile_of_form hpoint hsplit, parameters_ofForm, if_pos ⟨form, hsplit⟩]
    obtain ⟨p, hp⟩ := Option.isSome_iff_exists.mp (contains_of_standsAlone hsplit hc h)
    rw [hp, get?_parametersOf hp]

end Equation

end CurvePlot
