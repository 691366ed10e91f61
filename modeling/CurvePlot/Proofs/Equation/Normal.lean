import CurvePlot.Proofs.Equation.PointLiteral
import CurvePlot.Proofs.Parameter.Letters
import Mathlib.Data.List.Find
/-!
# Equations do not see how their text stood on a sheet

A text and its normal form compile to equations that differ in nothing but the text they
remember and, if the text cannot be read, the place that the error names
(`compile_normal`). Two things lie between the texts. One is flattening: no token begins
with a blank and none holds one, so the tokens are the same (`scanFrom_flatten`), and the
form is taken apart at the same signs (`split_flatten`). The other is the blanks around the
text, which are trimmed from every part of the form that reaches to an end of the text
(`split_surrounded`).
-/

namespace CurvePlot

open Sheet

/-! ### Tokens and letters -/

/-- What stops at blanks takes no blank, so it takes the same. -/
theorem takeWhile_flatten_eq {p : Char → Bool} (hspace : p ' ' = false) (hr : p '\r' = false)
    (hn : p '\n' = false) (text : List Char) :
    (flatten text).takeWhile p = text.takeWhile p := by
  rw [takeWhile_flatten text (apply_flat (hspace.trans hr.symm) (hspace.trans hn.symm))]
  refine flatten_eq_self fun c hc => flat_of_ne ?_ ?_
  · rintro rfl
    exact Bool.false_ne_true (hr.symm.trans (List.mem_takeWhile_imp hc))
  · rintro rfl
    exact Bool.false_ne_true (hn.symm.trans (List.mem_takeWhile_imp hc))

/-- A flattened text is as many bytes long, since a space is one byte as a line break is. -/
theorem byteLength_flatten (text : List Char) : Text.byteLength (flatten text) = Text.byteLength text := by
  induction text with
  | nil => rfl
  | cons c text ih =>
    rw [flatten_cons, Text.byteLength, Text.byteLength, ih,
      apply_flat (p := Char.utf8Size) (by decide) (by decide)]

namespace Token

/-- No symbol holds a blank. -/
theorem plain_of_mem_symbols : ∀ s ∈ symbols, s.1.all (Plain ·) := by
  decide +kernel

/-- Blanks belong to no token. -/
theorem first?_flatten (text : List Char) : first? (flatten text) = first? text := by
  unfold first?
  rw [takeWhile_flatten_eq (by decide) (by decide) (by decide),
    takeWhile_flatten_eq (by decide) (by decide) (by decide)]
  -- one symbol is tried after the other
  have hsymbols : ∀ s ∈ symbols,
      (if s.1.isPrefixOf (flatten text) then some (s.2, s.1.length) else none) =
        if s.1.isPrefixOf text then some (s.2, s.1.length) else none := by
    intro s hs
    rw [isPrefixOf_flatten text (plain_of_mem_symbols s hs)]
  dsimp only
  rw [← List.head?_filterMap, List.filterMap_congr hsymbols, List.head?_filterMap]

/-- **A flattened text has the tokens that the text has,** at the same places, and where no
token begins in the one, none begins in the other. -/
theorem scanFrom_flatten (position : Nat) (text : List Char) :
    scanFrom position (flatten text) = scanFrom position text := by
  have hskipped (c : Char) : isSkipped (flat c) = isSkipped c :=
    apply_flat (by decide) (by decide) c
  -- behind a token stands the rest of the flattened text
  have hwidth (count : Nat) (text : List Char) : Text.byteLength ((flatten text).take count) =
      Text.byteLength (text.take count) := by
    rw [flatten_eq_map, ← List.map_take]
    exact byteLength_flatten _
  have hrest (count : Nat) (text : List Char) :
      (flatten text).drop count = flatten (text.drop count) := List.map_drop.symm
  -- along the steps of the scan: what is skipped, what is a token with more behind it, and what is
  -- neither
  induction position, text using scanFrom.induct with
  | case1 position => rfl
  | case2 position c rest hc ih =>
    rw [flatten_cons, scanFrom, scanFrom, if_pos hc, if_pos ((hskipped c).trans hc), ih]
  | case3 position c rest hc x count hfirst =>
    rename_i width more hmore ih
    rw [flatten_cons, scanFrom, scanFrom, if_neg hc, if_neg (mt (hskipped c).symm.trans hc),
      ← flatten_cons, first?_flatten, hfirst]
    dsimp only
    rw [hwidth, hrest, ih]
  | case4 position c rest hc x count hfirst =>
    rename_i width e hmore ih
    rw [flatten_cons, scanFrom, scanFrom, if_neg hc, if_neg (mt (hskipped c).symm.trans hc),
      ← flatten_cons, first?_flatten, hfirst]
    dsimp only
    rw [hwidth, hrest, ih]
  | case5 position c rest hc hfirst =>
    -- what begins no token is no blank, and so it is the same character
    have hsame : flat c = c := by
      refine flat_of_ne ?_ ?_
      · rintro rfl
        exact hc rfl
      · rintro rfl
        exact hc rfl
    rw [flatten_cons, scanFrom, scanFrom, if_neg hc, if_neg (mt (hskipped c).symm.trans hc),
      ← flatten_cons, first?_flatten, hfirst, hsame]

end Token

/-- So the text is read alike. -/
theorem Expr.read_flatten (t : Parameter.Table) (text : List Char) :
    Expr.read t (flatten text) = Expr.read t text := by
  rw [Expr.read, Expr.read, Token.scan, Token.scan, Token.scanFrom_flatten]

namespace Parameter

/-- **No letter is lost or won** by flattening. -/
theorem letters_flatten (text : List Char) : letters (flatten text) = letters text := by
  -- the names that are passed over hold no blanks
  have hnames : ∀ name ∈ Elementary.reservedNames, name.all (Plain ·) := by decide +kernel
  have hfind (c : Char) (rest : List Char) :
      Elementary.reservedNames.find? (·.isPrefixOf (flat c :: flatten rest)) =
        Elementary.reservedNames.find? (·.isPrefixOf (c :: rest)) :=
    List.find?_congr fun name hname => isPrefixOf_flatten (c :: rest) (hnames name hname)
  induction text using letters.induct with
  | case1 => rfl
  | case2 c rest name hname ih =>
    rw [letters_of_find? hname, flatten_cons,
      letters_of_find? ((hfind c rest).trans hname), ← ih]
    exact congrArg letters List.map_drop.symm
  | case3 c rest hname hc ih =>
    -- a letter that is a name is no line break
    have hsame : flat c = c := by
      refine flat_of_ne ?_ ?_
      · rintro rfl
        cases hc
      · rintro rfl
        cases hc
    rw [letters_of_find?_eq_none hname, flatten_cons,
      letters_of_find?_eq_none ((hfind c rest).trans hname), ih, hsame]
  | case4 c rest hname hc ih =>
    have hc' : ¬ isName (flat c) = true := by
      rw [apply_flat (p := isName) (by decide) (by decide)]
      exact hc
    rw [letters_of_find?_eq_none hname, flatten_cons,
      letters_of_find?_eq_none ((hfind c rest).trans hname), ih, if_neg hc, if_neg hc']

end Parameter

/-! ### Points -/

namespace PointLiteral

/-- Digits are all that there is in a decimal besides its sign and its point. -/
theorem allDigits_flatten (text : List Char) :
    Decimal.allDigits (flatten text) = Decimal.allDigits text := by
  rw [Decimal.allDigits, Decimal.allDigits, flatten_eq_map, List.all_map,
    show Char.isDigit ∘ flat = Char.isDigit from funext (apply_flat (by decide) (by decide))]

/-- Digits are no line breaks. -/
theorem flatten_of_allDigits {text : List Char} (h : Decimal.allDigits text = true) :
    flatten text = text := by
  refine flatten_eq_self fun c hc => flat_of_ne ?_ ?_
  · rintro rfl
    exact absurd (List.all_eq_true.mp h _ hc) (by decide)
  · rintro rfl
    exact absurd (List.all_eq_true.mp h _ hc) (by decide)

/-- A decimal has its point where it had it. -/
theorem splitPoint_flatten (text : List Char) : Decimal.splitPoint (flatten text) =
    (flatten (Decimal.splitPoint text).1, flatten (Decimal.splitPoint text).2) := by
  rw [Decimal.splitPoint, Decimal.splitPoint, splitAt?_flatten text (by decide)]
  cases Decimal.splitAt? '.' text <;> rfl

/-- Without its sign, a decimal is read alike, -/
theorem unsigned?_flatten (negative : Bool) (text : List Char) :
    unsigned? negative (flatten text) = unsigned? negative text := by
  unfold unsigned?
  rw [splitPoint_flatten]
  dsimp only
  rw [isEmpty_flatten, allDigits_flatten, allDigits_flatten]
  split
  · next h =>
    rw [Bool.and_eq_true, Bool.and_eq_true] at h
    rw [flatten_of_allDigits h.1.2, flatten_of_allDigits h.2]
  · rfl

/-- and so it is with its sign. -/
theorem decimal?_flatten (text : List Char) : decimal? (flatten text) = decimal? text := by
  cases text with
  | nil => rfl
  | cons c rest =>
    rw [flatten_cons, decimal?_cons, decimal?_cons, ← flatten_cons, unsigned?_flatten,
      unsigned?_flatten]
    simp only [flat_eq_iff (show Plain '-' by decide)]

/-- What stands in parentheses is what is left without the first and the last sign. -/
theorem insideParens?_cons (c : Char) (rest : List Char) : insideParens? (c :: rest) =
    if c = '(' ∧ rest.getLast? = some ')' then some rest.dropLast else none := by
  unfold insideParens?
  by_cases hc : c = '('
  · subst hc
    simp only [true_and]
  · simp [hc]

/-- What stands in parentheses is flattened with the text. -/
theorem insideParens?_flatten (text : List Char) :
    insideParens? (flatten text) = (insideParens? text).map flatten := by
  cases text with
  | nil => rfl
  | cons c rest =>
    -- the last sign closes it before and after
    have hlast : (flatten rest).getLast? = some ')' ↔ rest.getLast? = some ')' := by
      rw [flatten_eq_map, List.getLast?_map]
      cases rest.getLast? with
      | none => rfl
      | some d => rw [Option.map_some, Option.some_inj, Option.some_inj, flat_eq_iff (by decide)]
    rw [flatten_cons, insideParens?_cons, insideParens?_cons, apply_ite (Option.map flatten)]
    simp only [hlast, flat_eq_iff (show Plain '(' by decide)]
    exact congrArg (ite _ · _) (congrArg some List.map_dropLast.symm)

/-- A text is the point that its normal form is. -/
theorem read?_normal (text : List Char) : read? (normal text) = read? text := by
  have htrim : Text.trim (normal text) = flatten (Text.trim text) := by
    rw [normal, Text.trim_trim, trim_flatten]
  unfold read?
  rw [htrim, insideParens?_flatten]
  -- the two sides of the comma are trimmed and read one by one
  cases insideParens? (Text.trim text) with
  | none => rfl
  | some inside =>
    simp only [Option.map_some, Option.bind_eq_bind, Option.bind_some,
      splitAt?_flatten inside (show Plain ',' by decide)]
    cases Decimal.splitAt? ',' inside with
    | none => rfl
    | some sides =>
      simp only [Option.map_some, Option.bind_some, trim_flatten, decimal?_flatten]

end PointLiteral

/-! ### Forms -/

/-- What kind of cause it is, whatever place and text it names. -/
inductive CompileError.Kind where
  | empty
  | unexpectedCharacter
  | unexpectedToken
  | unexpectedEnd
  | unknownFunction
  | unmatchedParenthesis
  | unmatchedBrace
  | invalidNumber
deriving Repr, DecidableEq

/-- What kind of cause an error is. -/
def CompileError.kind : CompileError → Kind
  | .empty => .empty
  | .unexpectedCharacter _ _ => .unexpectedCharacter
  | .unexpectedToken _ _ => .unexpectedToken
  | .unexpectedEnd => .unexpectedEnd
  | .unknownFunction _ => .unknownFunction
  | .unmatchedParenthesis _ => .unmatchedParenthesis
  | .unmatchedBrace => .unmatchedBrace
  | .invalidNumber _ => .invalidNumber

namespace Form

/-- The form with its parts flattened. -/
def flatten (form : Form) : Form :=
  ⟨form.kind, Sheet.flatten form.body, form.limit.map Sheet.flatten⟩

/-- What joins is written as two ampersands, and everything else stays. -/
theorem joined_cons (c : Char) (rest : List Char) : joined (c :: rest) =
    if ['a', 'n', 'd'].isPrefixOf (c :: rest) then '&' :: '&' :: joined (rest.drop 2)
    else if c = ',' then '&' :: '&' :: joined rest else c :: joined rest := by
  split
  · next h =>
    obtain ⟨behind, hbehind⟩ := List.isPrefixOf_iff_prefix.mp h
    obtain ⟨rfl, rfl⟩ := List.cons.inj hbehind
    rfl
  · next h =>
    rw [joined]
    rintro behind rfl rfl
    exact h rfl

/-- Joining commutes with flattening. -/
theorem joined_flatten (text : List Char) :
    joined (Sheet.flatten text) = Sheet.flatten (joined text) := by
  induction text using joined.induct with
  | case1 => rfl
  | case2 rest ih => exact congrArg ('&' :: '&' :: ·) ih
  | case3 rest _ ih => exact congrArg ('&' :: '&' :: ·) ih
  | case4 c rest hand hcomma ih =>
    have hnot : ['a', 'n', 'd'].isPrefixOf (c :: rest) = false := by
      refine Bool.eq_false_iff.mpr fun h => ?_
      obtain ⟨behind, hbehind⟩ := List.isPrefixOf_iff_prefix.mp h
      obtain ⟨hc, hrest⟩ := List.cons.inj hbehind
      exact hand behind hc.symm hrest.symm
    have hnot' : ['a', 'n', 'd'].isPrefixOf (flat c :: Sheet.flatten rest) = false :=
      (isPrefixOf_flatten (c :: rest) (by decide)).trans hnot
    have hcomma' : flat c ≠ ',' := mt (flat_eq_iff (by decide)).mp hcomma
    rw [flatten_cons, joined_cons, joined_cons, hnot, hnot', if_neg Bool.false_ne_true,
      if_neg Bool.false_ne_true, if_neg hcomma, if_neg hcomma', flatten_cons, ih]

/-- So does cutting at the last sign, -/
theorem splitAtLast?_flatten {c : Char} (hc : Plain c) (text : List Char) :
    splitAtLast? c (Sheet.flatten text) = (splitAtLast? c text).map fun (before, after) =>
      (Sheet.flatten before, Sheet.flatten after) := by
  rw [splitAtLast?, splitAtLast?, ← flatten_reverse, splitAt?_flatten _ hc, Option.map_map,
    Option.map_map]
  refine congrArg (Option.map · _) (funext fun (after, before) => ?_)
  simp only [Function.comp_apply, flatten_reverse]

/-- dropping a beginning -/
theorem dropStart?_flatten {start : List Char} (h : start.all (Plain ·)) (text : List Char) :
    Text.dropStart? start (Sheet.flatten text) = (Text.dropStart? start text).map Sheet.flatten := by
  rw [Text.dropStart?, Text.dropStart?, isPrefixOf_flatten text h]
  split
  · exact congrArg some List.map_drop.symm
  · rfl

/-- and taking the body of an explicit equation. -/
theorem explicitBody?_flatten (math : List Char) :
    explicitBody? (Sheet.flatten math) = (explicitBody? math).map Sheet.flatten := by
  -- the name in front is found alike, and so is the sign behind it
  have hnamed : (Text.dropStart? ['f', '(', 'x', ')'] (Sheet.flatten math)).or
      (Text.dropStart? ['y'] (Sheet.flatten math)) =
      ((Text.dropStart? ['f', '(', 'x', ')'] math).or (Text.dropStart? ['y'] math)).map
        Sheet.flatten := by
    rw [dropStart?_flatten (by decide), dropStart?_flatten (by decide), Option.map_or]
  have hsecond (body : List Char) :
      (Sheet.flatten body).head? = some '=' ↔ body.head? = some '=' := by
    cases body with
    | nil => rfl
    | cons c body =>
      rw [flatten_cons, List.head?_cons, List.head?_cons, Option.some_inj, Option.some_inj,
        flat_eq_iff (by decide)]
  have hsign (text : List Char) : Text.dropStart? ['='] (Sheet.flatten text) =
      (Text.dropStart? ['='] text).map Sheet.flatten := dropStart?_flatten (by decide) text
  unfold explicitBody?
  rw [hnamed]
  cases (Text.dropStart? ['f', '(', 'x', ')'] math).or (Text.dropStart? ['y'] math) with
  | none => rfl
  | some named =>
    simp only [Option.map_some, Option.bind_eq_bind, Option.bind_some, trimStart_flatten, hsign]
    cases Text.dropStart? ['='] (Text.trimStart named) with
    | none => rfl
    | some body =>
      simp only [Option.map_some, Option.bind_some, hsecond]
      split <;> rfl

/-- The signs that are equalities are those of the flattened text. -/
theorem equalitiesAfter_flatten (before text : List Char) :
    equalitiesAfter (Sheet.flatten before) (Sheet.flatten text) =
      (equalitiesAfter before text).map fun (lhs, rhs) =>
        (Sheet.flatten lhs, Sheet.flatten rhs) := by
  induction text generalizing before with
  | nil => rfl
  | cons c rest ih =>
    -- whether a sign is one depends on its two neighbours
    have hnext : ((Sheet.flatten rest).head? == some '=') = (rest.head? == some '=') := by
      cases rest with
      | nil => rfl
      | cons d rest => exact flat_beq (by decide)
    have hlast : (Sheet.flatten before).head?.any ['<', '>', '=', '!'].contains =
        before.head?.any ['<', '>', '=', '!'].contains := by
      cases before with
      | nil => rfl
      | cons d before =>
        exact apply_flat (p := ['<', '>', '=', '!'].contains) (by decide) (by decide) d
    rw [flatten_cons, equalitiesAfter, equalitiesAfter, hnext, hlast, ← flatten_cons, ih,
      ← flatten_reverse]
    simp only [flat_eq_iff (show Plain '=' by decide)]
    split <;> rfl

/-- Writing two sides as a difference commutes with it as well. -/
theorem difference_flatten (lhs rhs : List Char) :
    difference (Sheet.flatten lhs) (Sheet.flatten rhs) = Sheet.flatten (difference lhs rhs) := by
  simp only [difference, flatten_append, flatten_cons, flatten_nil, List.cons_append]
  rfl

/-- The form of a text whose domain restriction was split off. -/
def ofParts (math : List Char) (limit : Option (List Char)) : Except CompileError Form :=
  if math.isEmpty then .error .empty
  else
    match explicitBody? math with
    | some body => .ok ⟨.explicit, Text.trim body, limit⟩
    | none =>
      match equalities math with
      | [] => .ok ⟨.bare, math, limit⟩
      | [(lhs, rhs)] => .ok ⟨.relation, difference lhs rhs, limit⟩
      | _ => .ok ⟨.relation, math, limit⟩

/-- The restriction is split off first. -/
theorem split_eq (text : List Char) :
    split text = splitLimit text >>= fun (math, limit) => ofParts math limit := by
  unfold split
  cases splitLimit text <;> rfl

/-- The rest is taken apart alike. -/
theorem ofParts_flatten (math : List Char) (limit : Option (List Char)) :
    ofParts (Sheet.flatten math) (limit.map Sheet.flatten) = (ofParts math limit).map flatten := by
  have hsides : equalities (Sheet.flatten math) = (equalities math).map fun (lhs, rhs) =>
      (Sheet.flatten lhs, Sheet.flatten rhs) := equalitiesAfter_flatten [] math
  unfold ofParts
  rw [isEmpty_flatten, explicitBody?_flatten, hsides]
  split
  · rfl
  · cases explicitBody? math with
    | some body =>
      dsimp only [Option.map_some]
      rw [trim_flatten]
      rfl
    | none =>
      match equalities math with
      | [] => rfl
      | [(lhs, rhs)] =>
        have hbody := congrArg (fun body => (Except.ok ⟨.relation, body, limit.map Sheet.flatten⟩ :
          Except CompileError Form)) (difference_flatten lhs rhs)
        exact hbody
      | _ :: _ :: _ => rfl

/-- The restriction is split off alike, but for the place that an error names. -/
theorem splitLimit_flatten (text : List Char) :
    (splitLimit (Sheet.flatten text)).mapError CompileError.kind =
      ((splitLimit text).map fun (math, limit) =>
        (Sheet.flatten math, limit.map Sheet.flatten)).mapError CompileError.kind := by
  unfold splitLimit
  rw [splitAt?_flatten text (by decide)]
  cases Decimal.splitAt? '\x7b' text with
  | none =>
    dsimp only [Option.map_none]
    rw [trim_flatten]
    rfl
  | some parts =>
    obtain ⟨math, behind⟩ := parts
    dsimp only [Option.map_some]
    rw [splitAtLast?_flatten (by decide)]
    cases splitAtLast? '\x7d' behind with
    | none => rfl
    | some sides =>
      obtain ⟨inside, after⟩ := sides
      dsimp only [Option.map_some]
      rw [trim_flatten after, isEmpty_flatten, trim_flatten inside, joined_flatten,
        isEmpty_flatten, trim_flatten math]
      split
      · split <;> rfl
      · -- the place and the text of what is behind the brace may differ
        rfl

/-- Cutting at the last sign does not see what stands behind, if the sign is not there. -/
theorem splitAtLast?_append_right {c : Char} {post : List Char} (h : c ∉ post)
    (text : List Char) : splitAtLast? c (text ++ post) =
      (splitAtLast? c text).map fun (before, after) => (before, after ++ post) := by
  have hreverse : c ∉ post.reverse := fun hmem => h (List.mem_reverse.mp hmem)
  rw [splitAtLast?, splitAtLast?, List.reverse_append, Text.splitAt?_append_left hreverse,
    Option.map_map, Option.map_map]
  refine congrArg (Option.map · _) (funext fun (after, before) => ?_)
  simp only [Function.comp_apply, List.reverse_append, List.reverse_reverse]

/-- **Blanks around the text are trimmed from the parts at its ends.** -/
theorem splitLimit_surrounded {pre post : List Char} (hpre : ∀ c ∈ pre, Text.isBlank c = true)
    (hpost : ∀ c ∈ post, Text.isBlank c = true) (text : List Char) :
    (splitLimit (pre ++ text ++ post)).mapError CompileError.kind =
      (splitLimit text).mapError CompileError.kind := by
  have hbrace {c : Char} (hc : Text.isBlank c = false) {blanks : List Char}
      (hblanks : ∀ d ∈ blanks, Text.isBlank d = true) : c ∉ blanks :=
    fun hmem => Bool.false_ne_true (hc.symm.trans (hblanks c hmem))
  unfold splitLimit
  rw [Text.splitAt?_append_right (hbrace (by decide) hpost),
    Text.splitAt?_append_left (hbrace (by decide) hpre)]
  cases Decimal.splitAt? '\x7b' text with
  | none =>
    dsimp only [Option.map_none]
    rw [Text.trim_surrounded hpre hpost]
  | some parts =>
    obtain ⟨math, behind⟩ := parts
    dsimp only [Option.map_some]
    rw [splitAtLast?_append_right (hbrace (by decide) hpost)]
    cases splitAtLast? '\x7d' behind with
    | none => rfl
    | some sides =>
      obtain ⟨inside, after⟩ := sides
      dsimp only [Option.map_some]
      rw [Text.trim_append_blanks hpost, Text.trim_blanks_append hpre]
      split
      · -- what is behind the brace is blank in both or in neither
        rfl
      · rfl

/-- The kind of an error is kept when something is done to the result. -/
theorem mapError_map {α β : Type} (x : Except CompileError α) (g : α → β) :
    (x.map g).mapError CompileError.kind = (x.mapError CompileError.kind).map g := by
  cases x <;> rfl

/-- Steps that agree up to the kind of their error, one after the other. -/
theorem mapError_bind_congr {α β γ : Type} {x : Except CompileError α} {y : Except CompileError β}
    {g : α → β} {f : α → Except CompileError γ} {f' : β → Except CompileError γ}
    (h : y.mapError CompileError.kind = (x.map g).mapError CompileError.kind)
    (hf : ∀ a, f' (g a) = f a) :
    (y >>= f').mapError CompileError.kind = (x >>= f).mapError CompileError.kind := by
  -- both fail, and then for causes of one kind, or none does
  cases x with
  | error e =>
    cases y with
    | error e' => exact congrArg Except.error (Except.error.inj h)
    | ok b => cases h
  | ok a =>
    cases y with
    | error e' => cases h
    | ok b =>
      obtain rfl := Except.ok.inj h
      exact congrArg (Except.mapError CompileError.kind) (hf a)

/-- **A text has the form of its normal form,** but for line breaks in the parts. -/
theorem split_normal (text : List Char) :
    (split (Text.lowercase (normal text))).mapError CompileError.kind =
      ((split (Text.lowercase text)).map flatten).mapError CompileError.kind := by
  -- the text is trimmed first; lowering the case and flattening leave the blanks around it alone
  obtain ⟨pre, post, hpre, hpost, htext⟩ := Text.exists_surrounding text
  have hnormal : Text.lowercase (normal text) = Sheet.flatten (Text.lowercase (Text.trim text)) := by
    rw [normal, trim_flatten, lowercase_flatten]
  have hlower : Text.lowercase text = pre ++ Text.lowercase (Text.trim text) ++ post := by
    conv_lhs => rw [htext]
    exact Text.lowercase_surrounded hpre hpost _
  have hlimit : (splitLimit (Text.lowercase (normal text))).mapError CompileError.kind =
      ((splitLimit (Text.lowercase text)).map fun (math, limit) =>
        (Sheet.flatten math, limit.map Sheet.flatten)).mapError CompileError.kind := by
    rw [hnormal, splitLimit_flatten, hlower, mapError_map, mapError_map,
      splitLimit_surrounded hpre hpost]
  have hmap : (split (Text.lowercase text)).map flatten =
      splitLimit (Text.lowercase text) >>= fun (math, limit) =>
        (ofParts math limit).map flatten := by
    rw [split_eq]
    cases splitLimit (Text.lowercase text) <;> rfl
  rw [hmap, split_eq]
  exact mapError_bind_congr hlimit fun parts => ofParts_flatten parts.1 parts.2

end Form

/-! ### Equations -/

/-- **The equations say the same,** or fail for the same kind of cause. They may stand for
different texts, and their sliders may stand elsewhere. -/
structure Equation.Alike (a b : Equation) : Prop where
  /-- Both can be read or neither can. -/
  isValid : b.isValid = a.isValid
  /-- If they cannot, the causes are of one kind. -/
  kind : b.error?.map CompileError.kind = a.error?.map CompileError.kind
  /-- They are drawn in one way. -/
  classification : b.classification = a.classification
  /-- They have one expression -/
  math : b.math = a.math
  /-- and one restriction. -/
  limit : b.limit? = a.limit?
  /-- They have the same sliders. -/
  names : b.parameters.keys = a.parameters.keys

namespace Equation

/-- Equations are alike if their outcomes are, up to the place that an error names. -/
theorem Alike.of_outcome {a b : Equation} (hclass : b.classification = a.classification)
    (houtcome : b.outcome.mapError CompileError.kind = a.outcome.mapError CompileError.kind)
    (hnames : b.parameters.keys = a.parameters.keys) : a.Alike b := by
  have hread : b.isValid = a.isValid ∧ b.error?.map CompileError.kind =
      a.error?.map CompileError.kind ∧ b.formula = a.formula := by
    unfold Equation.isValid Equation.error? Equation.formula
    cases hb : b.outcome with
    | error e' =>
      cases ha : a.outcome with
      | error e =>
        rw [ha, hb] at houtcome
        exact ⟨rfl, congrArg some (Except.error.inj houtcome), rfl⟩
      | ok f => rw [ha, hb] at houtcome; cases houtcome
    | ok f' =>
      cases ha : a.outcome with
      | error e => rw [ha, hb] at houtcome; cases houtcome
      | ok f =>
        rw [ha, hb] at houtcome
        exact ⟨rfl, rfl, Except.ok.inj houtcome⟩
  exact ⟨hread.1, hread.2.1, hclass, congrArg Formula.math hread.2.2,
    congrArg Formula.limit hread.2.2, hnames⟩

/-- The sliders come from the letters, which flattening keeps. -/
theorem parametersOf_flatten (form : Form) : parametersOf form.flatten = parametersOf form := by
  unfold parametersOf Form.flatten
  rw [Parameter.letters_flatten]
  cases form.limit with
  | none => rfl
  | some limit =>
    dsimp only [Option.map_some]
    rw [Parameter.letters_flatten]

/-- The expressions come from the tokens, which it keeps too. -/
theorem readForm_flatten (t : Parameter.Table) (form : Form) :
    readForm t form.flatten = readForm t form := by
  unfold readForm Form.flatten
  rw [Expr.read_flatten]
  cases form.limit with
  | none => rfl
  | some limit =>
    dsimp only [Option.map_some]
    rw [Expr.read_flatten]

/-- **A text compiles to what its normal form compiles to.** -/
theorem compile_normal (raw : String) (probe : Float) :
    (compile raw probe).Alike (compile (String.ofList (normal raw.toList)) probe) ∧
      (compile (String.ofList (normal raw.toList)) probe).parameters =
        (compile raw probe).parameters := by
  have hpoint : PointLiteral.read? (String.ofList (normal raw.toList)).toList =
      PointLiteral.read? raw.toList := by
    rw [String.toList_ofList, PointLiteral.read?_normal]
  -- a point is one before and after; otherwise both texts are split, and both fail or neither does
  cases hread : PointLiteral.read? raw.toList with
  | some p =>
    rw [compile_of_point hread, compile_of_point (hpoint.trans hread)]
    exact ⟨.of_outcome rfl rfl rfl, rfl⟩
  | none =>
    have hsplit := Form.split_normal raw.toList
    have hlist : (String.ofList (normal raw.toList)).toList = normal raw.toList :=
      String.toList_ofList
    cases hform : Form.split (Text.lowercase raw.toList) with
    | error e =>
      cases hform' : Form.split (Text.lowercase (normal raw.toList)) with
      | error e' =>
        rw [hform, hform'] at hsplit
        rw [compile_of_error hread hform,
          compile_of_error (hpoint.trans hread) (hlist.symm ▸ hform')]
        exact ⟨.of_outcome rfl (congrArg Except.error (Except.error.inj hsplit)) rfl, rfl⟩
      | ok form' => rw [hform, hform'] at hsplit; cases hsplit
    | ok form =>
      cases hform' : Form.split (Text.lowercase (normal raw.toList)) with
      | error e' => rw [hform, hform'] at hsplit; cases hsplit
      | ok form' =>
        rw [hform, hform'] at hsplit
        obtain rfl : form' = form.flatten := Except.ok.inj hsplit
        rw [compile_of_form hread hform, compile_of_form (hpoint.trans hread) (hlist.symm ▸ hform'),
          ofForm, ofForm, parametersOf_flatten, readForm_flatten]
        cases readForm (parametersOf form) form with
        | error e => exact ⟨.of_outcome rfl rfl rfl, rfl⟩
        | ok f => exact ⟨.of_outcome rfl rfl rfl, rfl⟩

/-- The sliders of a text that was just compiled stand where sliders start. -/
theorem get?_compile {raw : String} {probe : Float} {c : Char} {p : Parameter}
    (h : (compile raw probe).parameters.get? c = some p) : p = .standard := by
  -- a point has no sliders, and neither has a text that cannot be split
  cases hpoint : PointLiteral.read? raw.toList with
  | some q =>
    rw [compile_of_point hpoint] at h
    cases h
  | none =>
    cases hform : Form.split (Text.lowercase raw.toList) with
    | error e =>
      rw [compile_of_error hpoint hform] at h
      cases h
    | ok form =>
      rw [compile_of_form hpoint hform, parameters_ofForm] at h
      exact get?_parametersOf h

end Equation

end CurvePlot
