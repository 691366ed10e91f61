import CurvePlot.Proofs.Equation.Position
import CurvePlot.Proofs.Equation.Relation
import CurvePlot.Proofs.Expr.Clauses
/-!
# Lists of clauses

A domain restriction may be a list of clauses, with commas or the word `and` between them. The list
is not read clause by clause: each comma and each `and` becomes an `&&`, and the whole is read as
one text (`Form.joined_listed`, `Expr.exists_read_joined`). Since `&&` and `||` are of one strength,
the list is the conjunction of its clauses only if no clause behind the first has an `||` outside
its parentheses (`Equation.compile_clauses`, `Equation.clauses_taken_along`).

A clause that can be read has no comma and no capital sigma, as no sign of an expression is one, so
that the clauses of a list are put in lower case apart (`Equation.lowercase_restricted`). Whether
the body can be read does not depend on the parameters that the restriction adds to the table
(`Expr.exists_read`).
-/

namespace CurvePlot

namespace Text

variable {text rest : List Char} {d : Char}

/-! ### Lower case -/

/-- Without a capital sigma, each character changes by itself. -/
theorem lowercaseAfter_of_no_sigma (h : ∀ c ∈ text, c.toNat ≠ 0x3A3) (before : List Char) :
    lowercaseAfter before text = text.flatMap lowerChar := by
  induction text generalizing before with
  | nil => rfl
  | cons c text ih =>
    obtain ⟨hc, htext⟩ := List.forall_mem_cons.mp h
    rw [lowercaseAfter, ih htext, if_neg hc, List.flatMap_cons]

theorem lowercase_of_no_sigma (h : ∀ c ∈ text, c.toNat ≠ 0x3A3) :
    lowercase text = text.flatMap lowerChar := lowercaseAfter_of_no_sigma h []

/-- A capital sigma becomes a small one, in one form or the other. -/
theorem exists_sigma {before : List Char} (h : d ∈ text) (hd : d.toNat = 0x3A3) :
    Char.ofNat 0x3C2 ∈ lowercaseAfter before text ∨
      Char.ofNat 0x3C3 ∈ lowercaseAfter before text := by
  induction text generalizing before with
  | nil => cases h
  | cons c text ih =>
    rw [lowercaseAfter]
    rcases List.mem_cons.mp h with rfl | hmem
    · -- this character is the sigma
      rw [if_pos hd]
      split
      · exact .inl List.mem_cons_self
      · exact .inr List.mem_cons_self
    · exact (ih hmem).imp (List.mem_append_right _) (List.mem_append_right _)

/-- What has no case stays in the text. -/
theorem mem_lowercase (h : d ∈ text) (hd : lowerChar d = [d] ∧ d.toNat ≠ 0x3A3) :
    d ∈ lowercase text := by
  have hafter (before text : List Char) (h : d ∈ text) : d ∈ lowercaseAfter before text := by
    induction text generalizing before with
    | nil => cases h
    | cons c text ih =>
      rw [lowercaseAfter, List.mem_append]
      rcases List.mem_cons.mp h with rfl | hmem
      · -- this character stays
        rw [if_neg hd.2, hd.1]
        exact .inl List.mem_cons_self
      · exact .inr (ih _ hmem)
  exact hafter [] text h

/-- **A brace belongs to no word,** so that the texts before and behind it change apart. -/
theorem lowercase_append_brace (text rest : List Char) :
    lowercase (text ++ '\x7b' :: rest) = lowercase text ++ '\x7b' :: lowercase rest := by
  have hbrace (text : List Char) : meetsLetter ('\x7b' :: text) = false := by
    have hignorable : inRanges caseIgnorableRanges '\x7b' = false := by decide +kernel
    have hcased : inRanges casedRanges '\x7b' = false := by decide +kernel
    rw [meetsLetter_cons, hignorable, if_neg Bool.false_ne_true, hcased]
  have hmeets (text : List Char) : meetsLetter (text ++ '\x7b' :: rest) = meetsLetter text := by
    induction text with
    | nil => exact hbrace rest
    | cons c text ih => rw [List.cons_append, meetsLetter_cons, meetsLetter_cons, ih]
  -- what stands before counts for a sigma only, and no further back than the brace
  have hafter (before : List Char) : lowercaseAfter before (text ++ '\x7b' :: rest) =
      lowercaseAfter before text ++ '\x7b' :: lowercase rest := by
    induction text generalizing before with
    | nil =>
      have hlower : lowerChar '\x7b' = ['\x7b'] := by decide +kernel
      have hsigma : ('\x7b').toNat ≠ 0x3A3 := by decide
      show lowercaseAfter before ('\x7b' :: rest) = '\x7b' :: lowercase rest
      rw [lowercaseAfter, if_neg hsigma, hlower, List.singleton_append]
      exact congrArg ('\x7b' :: ·) (lowercaseAfter_congr (hbrace before) rest)
    | cons c text ih =>
      rw [List.cons_append, lowercaseAfter, lowercaseAfter, ih, hmeets text, List.append_assoc]
  exact hafter []

end Text

namespace Token

theorem sigma_not_written : ¬IsWritten (Char.ofNat 0x3C2) ∧ ¬IsWritten (Char.ofNat 0x3C3) := by
  unfold IsWritten
  decide +kernel

theorem comma_not_written : ¬IsWritten ',' := by
  unfold IsWritten
  decide +kernel

/-- **What can be scanned in lower case has no capital sigma.** -/
theorem Scans.no_sigma {text : List Char} {ts : List Token} (h : Scans (Text.lowercase text) ts) :
    ∀ c ∈ text, c.toNat ≠ 0x3A3 := by
  intro c hc hsigma
  rcases Text.exists_sigma hc hsigma with hmem | hmem
  · exact sigma_not_written.1 (h.isWritten _ hmem)
  · exact sigma_not_written.2 (h.isWritten _ hmem)

end Token

namespace Form

/-! ### Lists of clauses -/

/-- What stands between two clauses of a list. -/
inductive Separator where
  | comma
  | word
deriving DecidableEq

def Separator.text : Separator → List Char
  | comma => [',']
  | word => ['a', 'n', 'd']

/-- A list of clauses: the first one, and the others with what stands in front of each. -/
def listed (first : List Char) (more : List (Separator × List Char)) : List Char :=
  first ++ more.flatMap fun p => p.1.text ++ p.2

/-- The text has neither a comma nor the letters `and`. -/
structure Unlisted (text : List Char) : Prop where
  /-- No comma stands in it. -/
  no_comma : ',' ∉ text
  /-- The letters `and` do not follow each other. -/
  no_word : ¬['a', 'n', 'd'] <:+: text

theorem Unlisted.tail {c : Char} {text : List Char} (h : Unlisted (c :: text)) : Unlisted text where
  no_comma hmem := h.no_comma (List.mem_cons_of_mem c hmem)
  no_word hword := h.no_word (hword.trans (List.suffix_cons c text).isInfix)

/-- What is no list is left as it is. -/
theorem joined_unlisted {text : List Char} (h : Unlisted text) : joined text = text := by
  induction text with
  | nil => rfl
  | cons c text ih =>
    -- neither sign of a list begins here
    have hword : ¬['a', 'n', 'd'].isPrefixOf (c :: text) = true :=
      fun hprefix => h.no_word (List.isPrefixOf_iff_prefix.mp hprefix).isInfix
    have hcomma : c ≠ ',' := fun heq => h.no_comma (heq ▸ List.mem_cons_self)
    rw [joined_cons, if_neg hword, if_neg hcomma, ih h.tail]

/-- **No match of `and` reaches into another one.** -/
theorem joined_append_word (text rest : List Char) :
    joined (text ++ 'a' :: 'n' :: 'd' :: rest) = joined text ++ '&' :: '&' :: joined rest := by
  -- the induction follows the search for connectives
  induction text using joined.induct with
  | case1 => rfl
  | case2 text ih => exact congrArg ('&' :: '&' :: ·) ih
  | case3 text _ ih => exact congrArg ('&' :: '&' :: ·) ih
  | case4 c text hword hcomma ih =>
    have hnot : ¬['a', 'n', 'd'].isPrefixOf (c :: text) = true := by
      intro hprefix
      obtain ⟨behind, hbehind⟩ := List.isPrefixOf_iff_prefix.mp hprefix
      obtain ⟨hc, htext⟩ := List.cons.inj hbehind
      exact hword behind hc.symm htext.symm
    -- an `a` is the first letter of the word and no other one
    have hwhole :
        ¬['a', 'n', 'd'].isPrefixOf (c :: (text ++ 'a' :: 'n' :: 'd' :: rest)) = true := by
      rw [Token.isPrefixOf_append_separator (by decide)]
      exact hnot
    rw [List.cons_append, joined_cons, joined_cons, if_neg hwhole, if_neg hnot, if_neg hcomma,
      if_neg hcomma, ih, List.cons_append]

/-- A separator becomes the connective. -/
theorem joined_append_separator (s : Separator) (text rest : List Char) :
    joined (text ++ (s.text ++ rest)) = joined text ++ '&' :: '&' :: joined rest := by
  cases s with
  | comma =>
    have hbegins : Text.BeginsFree (Separator.comma.text ++ rest) :=
      Text.beginsFree_cons (show (',').isAlpha = false from rfl) rest
    rw [joined_append hbegins]
    exact congrArg (joined text ++ ·) (joined_cons_of_not_alpha rfl rest)
  | word => exact joined_append_word text rest

/-- **A list of clauses becomes the clauses with `&&` between them.** -/
theorem joined_listed {first : List Char} {more : List (Separator × List Char)}
    (hfirst : Unlisted first) (hmore : ∀ p ∈ more, Unlisted p.2) :
    joined (listed first more) = first ++ more.flatMap fun p => '&' :: '&' :: p.2 := by
  induction more generalizing first with
  | nil => rw [listed, List.flatMap_nil, List.flatMap_nil, List.append_nil, joined_unlisted hfirst]
  | cons p more ih =>
    obtain ⟨hp, hmore⟩ := List.forall_mem_cons.mp hmore
    have hrest := ih hp hmore
    rw [listed] at hrest
    rw [listed, List.flatMap_cons, List.append_assoc p.1.text, joined_append_separator, hrest,
      joined_unlisted hfirst, List.flatMap_cons, List.cons_append, List.cons_append]

/-- Blanks around a text stay around it. -/
theorem joined_surrounded {pre post : List Char} (hpre : ∀ c ∈ pre, Text.isBlank c = true)
    (hpost : ∀ c ∈ post, Text.isBlank c = true) (text : List Char) :
    joined (pre ++ text ++ post) = pre ++ joined text ++ post := by
  -- blanks are no signs of a list
  have hplain {blanks : List Char} (h : ∀ c ∈ blanks, Text.isBlank c = true) (rest : List Char) :
      joined (blanks ++ rest) = blanks ++ joined rest := by
    induction blanks with
    | nil => rfl
    | cons d blanks ih =>
      obtain ⟨hd, hblanks⟩ := List.forall_mem_cons.mp h
      have hcomma : d ≠ ',' := by
        rintro rfl
        exact absurd hd (by decide)
      rw [List.cons_append, joined_cons_of_not_alpha (Token.separates_of_isBlank hd).not_alpha,
        sign, if_neg hcomma, ih hblanks]
      rfl
  have hbegins : Text.BeginsFree post := fun d hd =>
    (Token.separates_of_isBlank (hpost d (List.mem_of_head? hd))).not_alpha
  have hpost' : joined post = post := by
    have happend := hplain hpost []
    rwa [List.append_nil, joined, List.append_nil] at happend
  rw [List.append_assoc, hplain hpre, joined_append hbegins, hpost', List.append_assoc]

/-! ### Splitting -/

/-- A text that ends with the character is cut there. -/
theorem splitAtLast?_concat (c : Char) (text : List Char) :
    splitAtLast? c (text ++ [c]) = some (text, []) := by
  have hcut : Decimal.splitAt? c (c :: text.reverse) = some ([], text.reverse) :=
    Text.splitAt?_append_cons List.not_mem_nil text.reverse
  rw [splitAtLast?, List.reverse_append, List.reverse_singleton, List.singleton_append, hcut,
    Option.map_some]
  dsimp only
  rw [List.reverse_reverse, List.reverse_nil]

/-- The restriction changes nothing else of the form. -/
theorem ofParts_limit (math : List Char) (limit : Option (List Char)) :
    ofParts math limit = (ofParts math none).map fun form => { form with limit := limit } := by
  unfold ofParts
  split
  · rfl
  · cases explicitBody? math with
    | some body => rfl
    | none =>
      rcases equalities math with _ | ⟨⟨lhs, rhs⟩, _ | _⟩
      all_goals rfl

/-- **A body with a restriction has the form of the body,** and the condition of the restriction. -/
theorem split_restricted {body inside : List Char} (hbrace : '\x7b' ∉ body)
    (hinside : joined (Text.trim inside) ≠ []) :
    split (body ++ '\x7b' :: (inside ++ ['\x7d'])) =
      (split body).map fun form => { form with limit := some (joined (Text.trim inside)) } := by
  have hlimit : splitLimit (body ++ '\x7b' :: (inside ++ ['\x7d'])) =
      .ok (Text.trim body, some (joined (Text.trim inside))) := by
    have hempty : ¬(joined (Text.trim inside)).isEmpty = true := by
      -- the condition is not empty, so it counts
      rwa [List.isEmpty_iff]
    rw [splitLimit, Text.splitAt?_append_cons hbrace]
    dsimp only
    rw [splitAtLast?_concat]
    dsimp only
    rw [if_neg hempty]
    rfl
  rw [split_eq, split_eq, hlimit, splitLimit_of_no_brace hbrace]
  exact ofParts_limit _ _

end Form

/-! ### Reading a list -/

namespace Token

/-- The text has an `||` outside its parentheses. -/
def OrOutside (text : List Char) : Prop := ∃ before after, text = before ++ '|' :: '|' :: after ∧
  Parenthesis.depth? 0 (before.filterMap Parenthesis.ofChar?) = some 0

variable {text : List Char} {ts : List Token}

theorem spelling_or {run : List Char} (h : Spelling run (.connective .or)) : run = ['|', '|'] := by
  have hsymbols : ∀ s ∈ symbols, s.2 = .connective .or → s.1 = ['|', '|'] := by decide
  cases h with
  | symbol hmem => exact hsymbols _ hmem rfl

theorem OrOutside.mem (h : OrOutside text) : '|' ∈ text := by
  obtain ⟨before, after, rfl, -⟩ := h
  exact List.mem_append_right before List.mem_cons_self

/-- An `||` among the tokens outside all parentheses is one in the text. -/
theorem Scans.orOutside (h : Scans text ts) (hor : Expr.JoinsByOr ts) : OrOutside text := by
  obtain ⟨p, q, rfl, hp⟩ := hor
  obtain ⟨before, run, after, rfl, hrun, hbrackets⟩ := h.exists_place
  refine ⟨before, after, ?_, ?_⟩
  · rw [spelling_or hrun, List.append_assoc]
    rfl
  · rw [hbrackets]
    exact hp

/-- The tokens of texts with `&&` between them. -/
theorem Scans.append_clauses {α : Type} {first : List Char} {u : List Token} (h : Scans first u)
    {more : List α} {text : α → List Char} {v : α → List Token}
    (hmore : ∀ p ∈ more, Scans (text p) (v p)) :
    Scans (first ++ more.flatMap fun p => '&' :: '&' :: text p)
      (u ++ more.flatMap fun p => .connective .and :: v p) := by
  induction more generalizing first u with
  | nil =>
    rw [List.flatMap_nil, List.flatMap_nil, List.append_nil, List.append_nil]
    exact h
  | cons p more ih =>
    obtain ⟨hp, hmore⟩ := List.forall_mem_cons.mp hmore
    rw [List.flatMap_cons, List.flatMap_cons, List.cons_append, List.cons_append, List.cons_append]
    exact h.append_and (ih hp hmore)

end Token

namespace Expr

variable {t : Parameter.Table} {first : List Char} {a : Expr}

/-- Whether a text can be read does not depend on what its letters stand for. -/
theorem exists_read {text : List Char} (h : ∃ e, read t text = .ok e) (t' : Parameter.Table) :
    ∃ e, read t' text = .ok e := by
  unfold read at h ⊢
  -- the letters are scanned alike, and only the table tells what they mean
  cases hscan : Token.scan text with
  | error e =>
    rw [hscan] at h
    exact absurd h (by simp)
  | ok ts =>
    rw [hscan] at h
    exact verdict_eq_ok.mp (verdict_eq_ok.mpr h)

theorem ne_nil_of_read {text : List Char} (h : read t text = .ok a) : text ≠ [] := by
  rintro rfl
  obtain ⟨ts, hts, hderives⟩ := read_eq_ok_iff.mp h
  cases hts
  exact hderives.ne_nil rfl

/-- A bound of `x` is a comparison. -/
theorem Derives.bound (op : Comparison) (c : Float) (after : List Token) :
    Derives t .chain [.word ['x'], .comparison op, .number c] after
      (.compare op .x (.constant c)) := by
  have hside {token : Token} {a : Expr} {after : List Token} (h : Derives t .atom [token] after a) :
      Derives t .sum [token] after a := .ofProduct (.ofSigned (.ofPower (.ofAtom h)))
  have hx : Derives t .sum [.word ['x']] (.comparison op :: .number c :: after) .x :=
    hside (.word ['x'] nofun)
  have hc : Derives t .sum [.number c] after (.constant c) := hside (.number c)
  exact .ofLinks (.link (u := [.word ['x']]) (v := [.number c]) op hx hc)

theorem read_bound {text : List Char} {op : Comparison} {c : Float}
    (h : Token.Scans text [.word ['x'], .comparison op, .number c]) :
    read t text = .ok (.compare op .x (.constant c)) :=
  read_eq_ok_iff.mpr ⟨_, h, .ofChain (.bound op c [])⟩

open Form (Separator Unlisted listed joined)

/-- **A list of clauses is read as conditions that hold if all the clauses hold,** and only then if
no clause behind the first has an `||` outside its parentheses. -/
theorem exists_read_joined (ha : read t first = .ok a) (hcondition : a.IsCondition)
    {more : List (Separator × List Char)} (hmore : ∀ p ∈ more, ∃ b, read t p.2 = .ok b)
    (hunlisted : Unlisted first) (hunlisted' : ∀ p ∈ more, Unlisted p.2) :
    ∃ e, read t (joined (Text.trim (listed first more))) = .ok e ∧ e.IsCondition ∧
      (∀ {env x y}, a.holds env x y = true →
        (∀ p ∈ more, ∀ b, read t p.2 = .ok b → b.holds env x y = true) → e.holds env x y = true) ∧
      ((∀ p ∈ more, ¬Token.OrOutside p.2) → ∀ {env x y}, e.holds env x y = true →
        a.holds env x y = true ∧
          ∀ p ∈ more, ∀ b, read t p.2 = .ok b → b.holds env x y = true) := by
  -- every clause is read by itself
  obtain ⟨u, hu, hau⟩ := read_eq_ok_iff.mp ha
  choose! b hb using hmore
  have hparts : ∀ p ∈ more, ∃ v, Token.Scans p.2 v ∧ Derives t .conditions v [] (b p) :=
    fun p hp => read_eq_ok_iff.mp (hb p hp)
  choose! v hv hbv using hparts
  obtain ⟨e, he, hcondition', hall, honly⟩ := exists_conjunction hau hcondition
    (more.map fun p => (v p, b p)) (List.forall_mem_map.mpr hbv)
  rw [List.flatMap_map] at he
  -- the tokens of the list are those of the clauses
  obtain ⟨pre, post, hpre, hpost, hlisted⟩ := Text.exists_surrounding (listed first more)
  have hscans : Token.Scans (joined (Text.trim (listed first more)))
      (u ++ more.flatMap fun p => .connective .and :: v p) := by
    refine .of_surrounded hpre hpost ?_
    rw [← Form.joined_surrounded hpre hpost, ← hlisted, Form.joined_listed hunlisted hunlisted']
    exact hu.append_clauses hv
  refine ⟨e, read_eq_ok_iff.mpr ⟨_, hscans, he⟩, hcondition', ?_, ?_⟩
  · intro env x y hfirst hrest
    exact hall hfirst (List.forall_mem_map.mpr fun p hp => hrest p hp (b p) (hb p hp))
  · intro hor env x y hholds
    have hor' : ∀ part ∈ more.map fun p => (v p, b p), ¬JoinsByOr part.1 :=
      List.forall_mem_map.mpr fun p hp hjoins => hor p hp ((hv p hp).orOutside hjoins)
    obtain ⟨hfirst, hrest⟩ := honly hor' hholds
    refine ⟨hfirst, fun p hp b' hb' => ?_⟩
    obtain rfl : b p = b' := Except.ok.inj ((hb p hp).symm.trans hb')
    exact List.forall_mem_map.mp hrest p hp

end Expr

/-! ### Restricted equations -/

namespace PointLiteral

theorem comma_mem {text : List Char} {p : Float × Float} (h : read? text = some p) :
    ',' ∈ text := by
  unfold read? at h
  simp only [Option.bind_eq_bind, Option.bind_eq_some_iff] at h
  obtain ⟨inside, hinside, ⟨left, right⟩, hcut, -⟩ := h
  rw [← Text.mem_trim (by decide), eq_of_insideParens? hinside, Text.eq_of_splitAt? hcut]
  simp

/-- **A point is no body of an equation:** it has a comma, and no expression has. -/
theorem not_read_of_point {body : List Char} {p : Float × Float} {form : Form}
    (hpoint : read? body = some p) (hsplit : Form.split (Text.lowercase body) = .ok form)
    (t : Parameter.Table) (e : Expr) : Expr.read t form.body ≠ .ok e := by
  -- signs that do not stand in a point
  have hnot {c : Char} (hc : Text.IsSign c) (hother : ¬(Text.isBlank c = true ∨
      c ∈ ['(', ')', ',', '-', '.'] ∨ c.isDigit = true)) : c ∉ Text.lowercase body :=
    fun hmem => hother (of_mem_point hpoint (Text.mem_of_mem_lowercase hc hmem))
  have hequality : '=' ∉ Text.trim (Text.lowercase body) := fun hmem =>
    hnot ⟨by decide, by decide, rfl⟩ (by decide) ((Text.mem_trim (by decide)).mp hmem)
  have hbrace : '\x7b' ∉ Text.lowercase body := hnot ⟨by decide, by decide, rfl⟩ (by decide)
  rw [Form.split_eq, Form.splitLimit_of_no_brace hbrace] at hsplit
  -- without an equality sign the body is the whole text, and there is the comma in it
  have hbody : form.body = Text.trim (Text.lowercase body) := by
    rcases (Form.ofParts_eq_ok hsplit).2 with ⟨_, -, hexplicit, -⟩ | hbody | ⟨lhs, rhs, -, hmath, -⟩
    · obtain ⟨name, post, -, -, hmath, -⟩ := Form.eq_of_explicitBody? hexplicit
      rw [hmath] at hequality
      exact absurd (List.mem_append_right _ List.mem_cons_self) hequality
    · exact hbody
    · rw [hmath] at hequality
      exact absurd (List.mem_append_right _ List.mem_cons_self) hequality
  have hcomma : ',' ∈ form.body := by
    rw [hbody, Text.mem_trim (by decide)]
    exact Text.mem_lowercase (comma_mem hpoint) (by decide +kernel)
  intro hread
  obtain ⟨ts, hts, -⟩ := Expr.read_eq_ok_iff.mp hread
  exact Token.comma_not_written (hts.isWritten _ hcomma)

end PointLiteral

namespace Equation

open Form (Separator Unlisted listed joined)
open Text (lowercase)

/-- **The clause can be read by itself,** as a comparison or as conditions that are joined, and it
has not the letters `and`. -/
structure IsClause (t : Parameter.Table) (clause : List Char) : Prop where
  /-- It is read as a condition. -/
  reads : ∃ e, Expr.read t (lowercase clause) = .ok e ∧ e.IsCondition
  /-- The letters `and` do not follow each other. -/
  no_word : ¬['a', 'n', 'd'] <:+: lowercase clause

/-- The text of a body with a list of clauses for its restriction. -/
def restricted (body first : List Char) (more : List (Separator × List Char)) : String :=
  String.ofList (body ++ '\x7b' :: (listed first more ++ ['\x7d']))

/-- The clause holds at a point. -/
def Holds (t : Parameter.Table) (env : Char → Float) (x y : Float) (clause : List Char) : Prop :=
  ∀ e, Expr.read t (lowercase clause) = .ok e → (e.eval env x y == (1.0 : Float)) = true

section

variable {t : Parameter.Table} {body first : List Char} {more : List (Separator × List Char)}

theorem IsClause.exists_scans {clause : List Char} (h : IsClause t clause) :
    ∃ ts, Token.Scans (lowercase clause) ts := by
  obtain ⟨e, he, -⟩ := h.reads
  obtain ⟨ts, hts, -⟩ := Expr.read_eq_ok_iff.mp he
  exact ⟨ts, hts⟩

theorem IsClause.unlisted {clause : List Char} (h : IsClause t clause) :
    Unlisted (lowercase clause) where
  no_comma hcomma := by
    obtain ⟨ts, hts⟩ := h.exists_scans
    exact Token.comma_not_written (hts.isWritten _ hcomma)
  no_word := h.no_word

/-- **The list in lower case is the list of the clauses in lower case.** -/
theorem lowercase_restricted (hfirst : IsClause t first) (hmore : ∀ p ∈ more, IsClause t p.2) :
    lowercase (restricted body first more).toList = lowercase body ++ '\x7b' ::
      (listed (lowercase first) (more.map fun p => (p.1, lowercase p.2)) ++ ['\x7d']) := by
  -- without a sigma each character changes by itself, so that the list may be cut anywhere
  -- the separators are in lower case already
  have hsign (s : Separator) : (s.text.flatMap Text.lowerChar = s.text) ∧
      ∀ c ∈ s.text, c.toNat ≠ 0x3A3 := by
    cases s with
    | comma => exact ⟨by decide +kernel, List.forall_mem_singleton.mpr (by decide)⟩
    | word =>
      have hletters : ['a', 'n', 'd'].all fun c => c.toNat != 0x3A3 := by decide
      refine ⟨by decide +kernel, fun c hc => ?_⟩
      exact bne_iff_ne.mp (List.all_eq_true.mp hletters c hc)
  have hclause {clause : List Char} (h : IsClause t clause) : ∀ c ∈ clause, c.toNat ≠ 0x3A3 := by
    obtain ⟨ts, hts⟩ := h.exists_scans
    exact hts.no_sigma
  have hlower {clause : List Char} (h : IsClause t clause) :
      clause.flatMap Text.lowerChar = lowercase clause :=
    (Text.lowercase_of_no_sigma (hclause h)).symm
  have hrest : ∀ p ∈ more, (p.1.text ++ p.2).flatMap Text.lowerChar =
      p.1.text ++ lowercase p.2 := by
    intro p hp
    rw [List.flatMap_append, (hsign p.1).1, hlower (hmore p hp)]
  have hno_sigma : ∀ c ∈ listed first more ++ ['\x7d'], c.toNat ≠ 0x3A3 := by
    -- the clauses and what stands between them
    refine List.forall_mem_append.mpr ⟨List.forall_mem_append.mpr ⟨hclause hfirst, ?_⟩, ?_⟩
    · intro c hc
      obtain ⟨p, hp, hcp⟩ := List.mem_flatMap.mp hc
      rcases List.mem_append.mp hcp with hcp | hcp
      · exact (hsign p.1).2 c hcp
      · exact hclause (hmore p hp) c hcp
    · exact List.forall_mem_singleton.mpr (by decide)
  have hbrace : ['\x7d'].flatMap Text.lowerChar = ['\x7d'] := by decide +kernel
  have hlist : (listed first more).flatMap Text.lowerChar =
      listed (lowercase first) (more.map fun p => (p.1, lowercase p.2)) := by
    rw [listed, listed, List.flatMap_append, hlower hfirst, List.flatMap_assoc, List.flatMap_map,
      List.flatMap_congr hrest]
  rw [restricted, String.toList_ofList, Text.lowercase_append_brace,
    Text.lowercase_of_no_sigma hno_sigma, List.flatMap_append, hbrace, hlist]

/-- A clause holds where its condition does. -/
theorem IsClause.holds_iff {clause : List Char} (h : IsClause t clause) {env : Char → Float}
    {x y : Float} : Holds t env x y clause ↔
      ∀ e, Expr.read t (lowercase clause) = .ok e → e.holds env x y = true := by
  obtain ⟨e, he, hcondition⟩ := h.reads
  refine forall₂_congr fun e' he' => ?_
  obtain rfl : e = e' := Except.ok.inj (he.symm.trans he')
  rw [hcondition.beq_one]

/-- The outcome of a form is what its parts are read as. -/
theorem outcome_eq_readForm (raw : String) (probe : Float) (form : Form) :
    (ofForm raw probe form).outcome = readForm (parametersOf form) form := by
  unfold ofForm
  dsimp only
  split
  · next h => exact h.symm
  · next h => exact h.symm

theorem isValid_iff {eq : Equation} : eq.isValid = true ↔ ∃ f, eq.outcome = .ok f := by
  unfold isValid
  cases eq.outcome <;> simp

/-- **A text that is no point is what the parts of its form are read as.** -/
theorem outcome_eq_ok {raw : String} {probe : Float} {f : Formula}
    (hpoint : PointLiteral.read? raw.toList = none) :
    (compile raw probe).outcome = .ok f ↔ ∃ form, Form.split (lowercase raw.toList) = .ok form ∧
      readForm (compile raw probe).parameters form = .ok f := by
  cases hsplit : Form.split (lowercase raw.toList) with
  | error cause => simp [compile_of_error hpoint hsplit]
  | ok form => simp [compile_of_form hpoint hsplit, outcome_eq_readForm, parameters_ofForm]

/-- **A body is valid, and no point, if it can be read.** -/
theorem isValid_body_iff (hbrace : '\x7b' ∉ lowercase body) (probe : Float) (t : Parameter.Table) :
    ((compile (String.ofList body) probe).isValid = true ∧
      (compile (String.ofList body) probe).point? = none) ↔
        ∃ form math, Form.split (lowercase body) = .ok form ∧ Expr.read t form.body = .ok math := by
  have hbody : (String.ofList body).toList = body := String.toList_ofList
  constructor
  · -- a body that is read as an equation
    rintro ⟨hvalid, hcurve⟩
    cases hpoint : PointLiteral.read? body with
    | some p =>
      rw [compile_of_point (by rwa [hbody])] at hcurve
      cases hcurve
    | none =>
      obtain ⟨f, hf⟩ := isValid_iff.mp hvalid
      obtain ⟨form, hsplit, hread⟩ := (outcome_eq_ok (by rwa [hbody])).mp hf
      rw [hbody] at hsplit
      obtain ⟨math, hmath⟩ := Expr.exists_read ⟨f.math, (readForm_eq_ok hread).1⟩ t
      exact ⟨form, math, hsplit, hmath⟩
  · -- a body that can be read is no point
    rintro ⟨form, math, hsplit, hmath⟩
    have hpoint : PointLiteral.read? body = none :=
      Option.eq_none_iff_forall_ne_some.mpr fun _ hread =>
        PointLiteral.not_read_of_point hread hsplit t math hmath
    obtain ⟨math', hmath'⟩ := Expr.exists_read ⟨math, hmath⟩ (parametersOf form)
    have hlimit : form.limit = none := by
      rw [Form.split_eq, Form.splitLimit_of_no_brace hbrace] at hsplit
      exact (Form.ofParts_eq_ok hsplit).1
    rw [compile_of_form (by rwa [hbody]) (by rwa [hbody]), isValid_iff, outcome_eq_readForm,
      point?_ofForm, readForm, hmath', hlimit]
    exact ⟨⟨_, rfl⟩, rfl⟩

theorem diagonal_isValid :
    (compile (String.ofList "y = x ".toList) standardProbe).isValid = true ∧
      (compile (String.ofList "y = x ".toList) standardProbe).point? = none := by
  have hbrace : '\x7b' ∉ lowercase "y = x ".toList := by decide +kernel
  have hsplit : Form.split (lowercase "y = x ".toList) = .ok ⟨.explicit, ['x'], none⟩ := by
    decide +kernel
  exact (isValid_body_iff hbrace standardProbe .empty).mpr ⟨_, .x, hsplit, Expr.read_x _⟩

/-- **A restricted body is valid if the body can be read,** once the restriction can. -/
theorem readForm_restricted {form : Form} {condition : List Char} {e : Expr}
    (he : Expr.read t condition = .ok e) {f : Formula} :
    readForm t { form with limit := some condition } = .ok f ↔
      ∃ math, Expr.read t form.body = .ok math ∧ f = ⟨math, some e⟩ := by
  unfold readForm
  dsimp only
  cases Expr.read t form.body with
  | error e' => simp
  | ok math =>
    dsimp only
    rw [he]
    simp [eq_comm]

/-- **A restricted body is what the body and the restriction are read as.** -/
theorem outcome_restricted {probe : Float} {condition : List Char} {e : Expr} {f : Formula}
    (hsplit : Form.split (lowercase (restricted body first more).toList) =
      (Form.split (lowercase body)).map fun form => { form with limit := some condition })
    (he : Expr.read (compile (restricted body first more) probe).parameters condition = .ok e) :
    (compile (restricted body first more) probe).outcome = .ok f ↔
      ∃ form math, Form.split (lowercase body) = .ok form ∧
        Expr.read (compile (restricted body first more) probe).parameters form.body = .ok math ∧
          f = ⟨math, some e⟩ := by
  -- a point has no brace
  have hpoint : PointLiteral.read? (restricted body first more).toList = none := by
    refine Option.eq_none_iff_forall_ne_some.mpr fun (px, py) hread => ?_
    have hmem : '\x7b' ∈ (restricted body first more).toList := by
      rw [restricted, String.toList_ofList]
      exact List.mem_append_right _ List.mem_cons_self
    exact absurd (PointLiteral.of_mem_point hread hmem) (by decide)
  rw [outcome_eq_ok hpoint, hsplit]
  cases Form.split (lowercase body) with
  | error cause => simp [Except.map]
  | ok form => simp [Except.map, readForm_restricted he]

/-- Outside its restriction an equation has no value. -/
theorem values_outside {eq : Equation} {f : Formula} (hf : eq.outcome = .ok f) (env : Char → Float)
    (x y : Float) :
    (f.admits env x y = false → eq.fieldAt env x y = Double.undefined) ∧
      (f.admits env x (eq.valueAt env x) = true ∨ eq.valueAt env x = Double.undefined) := by
  constructor
  · intro houtside
    rw [fieldAt, hf]
    dsimp only
    rw [houtside, if_neg Bool.false_ne_true]
    rfl
  · -- a curve that is drawn checks its own height
    have hguarded (height : Float) : f.admits env x
        (if f.admits env x height then height else Double.undefined) = true ∨
          (if f.admits env x height then height else Double.undefined) = Double.undefined := by
      by_cases hinside : f.admits env x height = true
      · rw [if_pos hinside]
        exact .inl hinside
      · rw [if_neg hinside]
        exact .inr rfl
    rw [valueAt, hf]
    dsimp only
    cases eq.classification with
    | explicit | linearInY => exact hguarded _
    | implicit | point => exact .inr rfl

/-- **A list of clauses is their conjunction.** A body with a list of clauses that can be read one
by one is valid exactly if the body is, unless the body is a point. Where all clauses hold, the
restriction does. Where one does not, the restriction does not, if no clause behind the first has an
`||` outside its parentheses; and outside the restriction the equation has no value. -/
theorem compile_clauses (body first : List Char) (more : List (Separator × List Char))
    (probe : Float) (hbrace : '\x7b' ∉ body) :
    let eq := compile (restricted body first more) probe
    let plain := compile (String.ofList body) probe
    let clauses := first :: more.map Prod.snd
    (∀ clause ∈ clauses, IsClause eq.parameters clause) →
      (eq.isValid = true ↔ plain.isValid = true ∧ plain.point? = none) ∧
      ∀ f, eq.outcome = .ok f → ∀ (env : Char → Float) (x y : Float),
        ((∀ clause ∈ clauses, Holds eq.parameters env x y clause) → f.admits env x y = true) ∧
        ((∀ p ∈ more, ¬Token.OrOutside (lowercase p.2)) → f.admits env x y = true →
          ∀ clause ∈ clauses, Holds eq.parameters env x y clause) ∧
        (f.admits env x y = false → eq.fieldAt env x y = Double.undefined) ∧
        (f.admits env x (eq.valueAt env x) = true ∨ eq.valueAt env x = Double.undefined) := by
  intro eq plain clauses hclauses
  obtain ⟨hfirst, hmap⟩ := List.forall_mem_cons.mp hclauses
  have hmore : ∀ p ∈ more, IsClause eq.parameters p.2 := List.forall_mem_map.mp hmap
  obtain ⟨a, ha, hcondition⟩ := hfirst.reads
  have hreads : ∀ p ∈ more.map fun p => (p.1, lowercase p.2),
      ∃ b, Expr.read eq.parameters p.2 = .ok b :=
    List.forall_mem_map.mpr fun p hp => (hmore p hp).reads.imp fun _ h => h.1
  -- each clause was read by itself, but the list is read as one text
  obtain ⟨e, he, hcondition', hall, honly⟩ := Expr.exists_read_joined ha hcondition hreads
    hfirst.unlisted (List.forall_mem_map.mpr fun p hp => (hmore p hp).unlisted)
  have hbrace' : '\x7b' ∉ lowercase body :=
    fun hmem => hbrace (Text.mem_of_mem_lowercase ⟨by decide, by decide, rfl⟩ hmem)
  have hsplit := Form.split_restricted hbrace' (Expr.ne_nil_of_read he)
  rw [← lowercase_restricted hfirst hmore] at hsplit
  have houtcome {f : Formula} : eq.outcome = .ok f ↔ _ := outcome_restricted hsplit he
  refine ⟨?_, fun f hf env x y => ?_⟩
  · -- the same body is read in both
    rw [isValid_iff, isValid_body_iff hbrace' probe eq.parameters]
    constructor
    · rintro ⟨f, hf⟩
      obtain ⟨form, math, hform, hmath, -⟩ := houtcome.mp hf
      exact ⟨form, math, hform, hmath⟩
    · rintro ⟨form, math, hform, hmath⟩
      exact ⟨⟨math, some e⟩, houtcome.mpr ⟨form, math, hform, hmath, rfl⟩⟩
  · -- the restriction holds where the list does
    have hadmits : f.admits env x y = e.holds env x y := by
      obtain ⟨form, math, -, -, rfl⟩ := houtcome.mp hf
      exact hcondition'.beq_one
    refine ⟨fun hall' => ?_, fun hor hinside => ?_, values_outside hf env x y⟩
    · -- every clause holds, so their conjunction does
      obtain ⟨ha', hmore'⟩ := List.forall_mem_cons.mp hall'
      rw [hadmits]
      refine hall (hfirst.holds_iff.mp ha' a ha) (List.forall_mem_map.mpr fun p hp => ?_)
      exact (hmore p hp).holds_iff.mp (List.forall_mem_map.mp hmore' p hp)
    · rw [hadmits] at hinside
      obtain ⟨ha', hmore'⟩ := honly (List.forall_mem_map.mpr hor) hinside
      refine List.forall_mem_cons.mpr ⟨hfirst.holds_iff.mpr fun b hb => ?_,
        List.forall_mem_map.mpr fun p hp => ?_⟩
      · obtain rfl := Except.ok.inj (ha.symm.trans hb)
        exact ha'
      · exact (hmore p hp).holds_iff.mpr (List.forall_mem_map.mp hmore' p hp)

end

/-- The interval between two bounds. -/
theorem compile_clauses_interval :
    let eq := compile (restricted "y = x ".toList "x > 0".toList [(.comma, " x < 5".toList)])
      standardProbe
    let clauses := ["x > 0".toList, " x < 5".toList]
    '\x7b' ∉ "y = x ".toList ∧ (∀ clause ∈ clauses, IsClause eq.parameters clause) ∧
      eq.isValid = true ∧ ∀ f, eq.outcome = .ok f → ∀ (env : Char → Float) (x y : Float),
        f.admits env x y = true ↔ ∀ clause ∈ clauses, Holds eq.parameters env x y clause := by
  intro eq clauses
  have hbrace : '\x7b' ∉ "y = x ".toList := by decide
  -- both clauses are bounds of `x`
  have hclauses : ∀ clause ∈ clauses, IsClause eq.parameters clause := by
    have hclause {clause : List Char} {op : Comparison} {c : Float}
        (hscans : Token.Scans (lowercase clause) [.word ['x'], .comparison op, .number c])
        (hword : ¬['a', 'n', 'd'] <:+: lowercase clause) : IsClause eq.parameters clause :=
      ⟨⟨_, Expr.read_bound hscans, trivial⟩, hword⟩
    have hlower : Token.Scans (lowercase "x > 0".toList)
        [.word ['x'], .comparison .greater, .number 0.0] := by
      rw [show lowercase "x > 0".toList = "x > 0".toList by decide +kernel]
      repeat' first | exact .nil | refine .skip rfl ?_ | refine .token rfl rfl ?_
    have hupper : Token.Scans (lowercase " x < 5".toList)
        [.word ['x'], .comparison .less, .number 5.0] := by
      rw [show lowercase " x < 5".toList = " x < 5".toList by decide +kernel]
      repeat' first | exact .nil | refine .skip rfl ?_ | refine .token rfl rfl ?_
    exact List.forall_mem_cons.mpr ⟨hclause hlower (by decide +kernel),
      List.forall_mem_singleton.mpr (hclause hupper (by decide +kernel))⟩
  obtain ⟨hvalid, hvalues⟩ := compile_clauses "y = x ".toList "x > 0".toList
    [(.comma, " x < 5".toList)] standardProbe hbrace hclauses
  have hor : ∀ p ∈ [(Separator.comma, " x < 5".toList)], ¬Token.OrOutside (lowercase p.2) :=
    List.forall_mem_singleton.mpr fun hor => absurd hor.mem (by decide +kernel)
  refine ⟨hbrace, hclauses, hvalid.mpr diagonal_isValid, fun f hf env x y => ?_⟩
  obtain ⟨hall, honly, -⟩ := hvalues f hf env x y
  exact ⟨honly hor, hall⟩

/-- The point `(1,2)` is valid, but not with a restriction. -/
theorem point_not_restricted :
    (compile "(1,2)" standardProbe).isValid = true ∧
      (compile (restricted "(1,2)".toList "x>0".toList []) standardProbe).isValid = false := by
  have hpoint : PointLiteral.read? "(1,2)".toList = some (1.0, 2.0) := by decide +kernel
  constructor
  · rw [compile_of_point hpoint]
    rfl
  · refine Bool.eq_false_iff.mpr fun hvalid => ?_
    obtain ⟨f, hf⟩ := isValid_iff.mp hvalid
    obtain ⟨form, hform, hread⟩ := (outcome_eq_ok (by decide +kernel)).mp hf
    have hbody : Form.split (lowercase "(1,2)".toList) = .ok ⟨.bare, "(1,2)".toList, none⟩ := by
      decide +kernel
    have hsplit : Form.split (lowercase (restricted "(1,2)".toList "x>0".toList []).toList) =
        .ok ⟨.bare, "(1,2)".toList, some "x>0".toList⟩ := by
      decide +kernel
    -- the body is split alike, but then it cannot be read
    obtain rfl := Except.ok.inj (hsplit.symm.trans hform)
    exact PointLiteral.not_read_of_point hpoint hbody _ _ (readForm_eq_ok hread).1

/-- **An `||` of a clause takes the clauses in front of it along,** and no point is restricted. In
`x>0 and x>1 || x<5` the conditions are joined from the left, so the restriction holds at `-1`,
where the first clause does not, and the curve is drawn there. The point `(1,2)` is valid without a
restriction only. -/
theorem clauses_taken_along :
    let eq := compile (restricted "y = x ".toList "x>0 ".toList [(.word, " x>1 || x<5".toList)])
      standardProbe
    let f : Formula := ⟨.x, some (.logical .or
      (.logical .and (.compare .greater .x (.constant 0.0)) (.compare .greater .x (.constant 1.0)))
      (.compare .less .x (.constant 5.0)))⟩
    (∀ clause ∈ ["x>0 ".toList, " x>1 || x<5".toList], IsClause eq.parameters clause) ∧
      eq.outcome = .ok f ∧ f.admits eq.parameters.value (-1.0) (-1.0) = true ∧
      ¬Holds eq.parameters eq.parameters.value (-1.0) (-1.0) "x>0 ".toList ∧
      eq.curve (-1.0) = -1.0 ∧
    (compile "(1,2)" standardProbe).isValid = true ∧
      (compile (restricted "(1,2)".toList "x>0".toList []) standardProbe).isValid = false := by
  intro eq f
  have hfirst : Expr.read eq.parameters (lowercase "x>0 ".toList) =
      .ok (.compare .greater .x (.constant 0.0)) := by
    have hscans : Token.Scans (lowercase "x>0 ".toList)
        [.word ['x'], .comparison .greater, .number 0.0] := by
      rw [show lowercase "x>0 ".toList = "x>0 ".toList by decide +kernel]
      repeat' first | exact .nil | refine .skip rfl ?_ | refine .token rfl rfl ?_
    exact Expr.read_bound hscans
  have hsecond : Expr.read eq.parameters (lowercase " x>1 || x<5".toList) =
      .ok (.logical .or (.compare .greater .x (.constant 1.0))
        (.compare .less .x (.constant 5.0))) := by
    have hscans : Token.Scans (lowercase " x>1 || x<5".toList)
        ([.word ['x'], .comparison .greater, .number 1.0] ++
          .connective .or :: [.word ['x'], .comparison .less, .number 5.0]) := by
      rw [show lowercase " x>1 || x<5".toList = " x>1 || x<5".toList by decide +kernel]
      repeat' first | exact .nil | refine .skip rfl ?_ | refine .token rfl rfl ?_
    exact Expr.read_eq_ok_iff.mpr
      ⟨_, hscans, .join .or (.ofChain (.bound .greater 1.0 _)) (.bound .less 5.0 [])⟩
  -- the text becomes one with `&&` in the place of the word
  let form : Form := ⟨.explicit, ['x'], some "x>0 && x>1 || x<5".toList⟩
  have heq : eq = ofForm _ standardProbe form :=
    compile_of_form (by decide +kernel) (by decide +kernel)
  have hlimit (t : Parameter.Table) : Expr.read t "x>0 && x>1 || x<5".toList = .ok (.logical .or
      (.logical .and (.compare .greater .x (.constant 0.0)) (.compare .greater .x (.constant 1.0)))
      (.compare .less .x (.constant 5.0))) := by
    have hscans : Token.Scans "x>0 && x>1 || x<5".toList
        (([.word ['x'], .comparison .greater, .number 0.0] ++
          .connective .and :: [.word ['x'], .comparison .greater, .number 1.0]) ++
          .connective .or :: [.word ['x'], .comparison .less, .number 5.0]) := by
      repeat' first | exact .nil | refine .skip rfl ?_ | refine .token rfl rfl ?_
    have hboth := Expr.Derives.join (t := t) .and (.ofChain (.bound .greater 0.0 _))
      (.bound .greater 1.0 (.connective .or :: [.word ['x'], .comparison .less, .number 5.0]))
    exact Expr.read_eq_ok_iff.mpr ⟨_, hscans, .join .or hboth (.bound .less 5.0 [])⟩
  have hread : readForm (parametersOf form) form = .ok f := by
    unfold readForm
    dsimp only [form]
    rw [Expr.read_x]
    dsimp only
    rw [hlimit]
  obtain ⟨hclass, houtcome⟩ : eq.classification = .explicit ∧ eq.outcome = .ok f := by
    rw [heq, ofForm, hread]
    exact ⟨rfl, rfl⟩
  -- the last clause holds at that point, and the rest does not matter
  have hadmits (env : Char → Float) : f.admits env (-1.0) (-1.0) = true := by
    have hbelow : Comparison.less.holds (-1.0 : Float) 5.0 = true := by decide +kernel
    have hlast : (Expr.compare .less .x (.constant 5.0)).holds env (-1.0) (-1.0) = true :=
      (Expr.holds_compare _ _ _).trans hbelow
    have hholds : (Expr.logical .or (.logical .and (.compare .greater .x (.constant 0.0))
        (.compare .greater .x (.constant 1.0))) (.compare .less .x (.constant 5.0))).holds
          env (-1.0) (-1.0) = true := by
      rw [Expr.holds_logical, hlast, Connective.holds, Bool.or_true]
    rwa [← Expr.IsCondition.beq_one] at hholds
    trivial
  -- the first clause does not
  have hnot (env : Char → Float) : ¬Holds eq.parameters env (-1.0) (-1.0) "x>0 ".toList := by
    intro hholds
    have habove : Comparison.greater.holds (-1.0 : Float) 0.0 = false := by decide +kernel
    have hone := hholds _ hfirst
    rw [Expr.IsCondition.beq_one, Expr.holds_compare] at hone
    · exact absurd (hone.symm.trans habove) (by decide)
    · trivial
  refine ⟨List.forall_mem_cons.mpr ⟨⟨⟨_, hfirst, trivial⟩, by decide +kernel⟩,
    List.forall_mem_singleton.mpr ⟨⟨_, hsecond, trivial⟩, by decide +kernel⟩⟩, houtcome,
    hadmits _, hnot _, ?_, point_not_restricted⟩
  rw [curve, valueAt, houtcome, hclass]
  exact if_pos (hadmits _)

end Equation

end CurvePlot
