import CurvePlot.Proofs.Equation.PointLiteral
import CurvePlot.Proofs.Expr.Parentheses
import CurvePlot.Proofs.Expr.Parse
import CurvePlot.Proofs.Text.Signs
/-!
# Relations between two sides

A text with one equality sign is not read side by side: the text `(lhs)-(rhs)` is made of
its sides and read as a whole. If both sides can be read, this gives the difference of
what they mean. But the text that is made may be readable though the sides are not, as a
side may close the parenthesis that was put in front of it: `x)*(y=1` is read as
`(x)*(y)-(1)`.

`compile_relation` says that nothing else can happen. A relation can be read as a whole,
and its sides close only parentheses of their own, exactly if both sides can be read.
-/

namespace CurvePlot

/-! ### The sides of a text -/

namespace Form

/-- No comparison takes the equality sign between the two parts. -/
structure Divides (lhs rhs : List Char) : Prop where
  behind : rhs.head? ≠ some '='
  before : ∀ c, lhs.getLast? = some c → c ∉ ['<', '>', '=', '!']

theorem mem_equalitiesAfter {before text lhs rhs : List Char} :
    (lhs, rhs) ∈ equalitiesAfter before text ↔
      ∃ between, lhs = before.reverse ++ between ∧ text = between ++ '=' :: rhs ∧
        Divides lhs rhs := by
  induction text generalizing before with
  | nil => simp [equalitiesAfter]
  | cons c rest ih =>
    -- the equality sign at the head stands alone exactly if the parts around it say so
    have halone : (c = '=' && !(rest.head? == some '=' || before.head?.any
        ['<', '>', '=', '!'].contains)) = true ↔ c = '=' ∧ Divides before.reverse rest := by
      rw [Bool.and_eq_true, decide_eq_true_eq, Bool.not_eq_true', Bool.or_eq_false_iff]
      refine and_congr_right fun _ => ⟨fun h => ⟨?_, ?_⟩, fun h => ⟨?_, ?_⟩⟩
      · simpa using h.1
      · intro d hd
        rw [List.getLast?_reverse] at hd
        have hnone := h.2
        rw [hd] at hnone
        simpa using hnone
      · simpa using h.behind
      · cases hhead : before.head? with
        | none => rfl
        | some d =>
          have hd := h.before d (by rw [List.getLast?_reverse, hhead])
          simpa using hd
    -- the list begins with the sides around this sign, if it counts
    have hfound : (lhs, rhs) ∈ equalitiesAfter before (c :: rest) ↔
        (c = '=' ∧ Divides before.reverse rest) ∧ (lhs, rhs) = (before.reverse, rest) ∨
          (lhs, rhs) ∈ equalitiesAfter (c :: before) rest := by
      rw [equalitiesAfter, ← halone]
      split
      · rename_i h
        rw [List.mem_cons, and_iff_right h]
      · rename_i h
        rw [or_iff_right fun h' => h h'.1]
    rw [hfound, ih]
    constructor
    · rintro (⟨⟨rfl, hdivides⟩, heq⟩ | ⟨between, rfl, rfl, hdivides⟩)
      · obtain ⟨rfl, rfl⟩ := Prod.mk.inj heq
        exact ⟨[], (List.append_nil _).symm, rfl, hdivides⟩
      · exact ⟨c :: between, by simp, rfl, hdivides⟩
    · rintro ⟨between, rfl, htext, hdivides⟩
      cases between with
      | nil =>
        obtain ⟨rfl, rfl⟩ := List.cons.inj htext
        rw [List.append_nil] at hdivides ⊢
        exact .inl ⟨⟨rfl, hdivides⟩, rfl⟩
      | cons d between =>
        obtain ⟨rfl, rfl⟩ := List.cons.inj htext
        exact .inr ⟨between, by simp, rfl, hdivides⟩

/-- **The sides of the equality signs of a text.** -/
theorem mem_equalities {text lhs rhs : List Char} :
    (lhs, rhs) ∈ equalities text ↔ text = lhs ++ '=' :: rhs ∧ Divides lhs rhs := by
  rw [equalities, mem_equalitiesAfter]
  constructor
  · rintro ⟨between, rfl, htext, hdivides⟩
    exact ⟨htext, hdivides⟩
  · rintro ⟨htext, hdivides⟩
    exact ⟨lhs, rfl, htext, hdivides⟩

/-- A text without braces restricts nothing. -/
theorem splitLimit_of_no_brace {text : List Char} (h : '\x7b' ∉ text) :
    splitLimit text = .ok (Text.trim text, none) := by
  rw [splitLimit, Text.splitAt?_eq_none h]

/-- A text with one equality sign, and no value behind it, is a relation. -/
theorem split_of_sides {text lhs rhs : List Char} (hbrace : '\x7b' ∉ text)
    (hexplicit : explicitBody? (Text.trim text) = none)
    (hsides : equalities (Text.trim text) = [(lhs, rhs)]) :
    split text = .ok ⟨.relation, difference lhs rhs, none⟩ := by
  -- an empty text has no sides
  have hne : (Text.trim text).isEmpty = false := by
    refine Bool.eq_false_iff.mpr fun hempty => ?_
    rw [List.isEmpty_iff.mp hempty] at hsides
    cases hsides
  rw [split, splitLimit_of_no_brace hbrace]
  dsimp only
  rw [hne, if_neg Bool.false_ne_true, hexplicit]
  dsimp only
  rw [hsides]

end Form

/-! ### A relation is no point -/

namespace PointLiteral

/-- A text with an equality sign is no point. -/
theorem read?_of_equality {text : List Char} (h : '=' ∈ text) : read? text = none := by
  -- what may stand in a point is blank, sign or digit
  refine Option.eq_none_iff_forall_ne_some.mpr fun (x, y) hread => ?_
  rcases of_mem_point hread h with hblank | hsign | hdigit
  · exact absurd hblank (by decide)
  · exact absurd hsign (by decide)
  · exact absurd hdigit (by decide)

end PointLiteral

/-! ### Reading the sides -/

namespace Expr

variable {t : Parameter.Table} {text lhs rhs : List Char} {e : Expr}

/-- A text is read as what the grammar derives from its tokens. -/
theorem read_eq_ok_iff :
    read t text = .ok e ↔ ∃ ts, Token.Scans text ts ∧ Derives t .conditions ts [] e := by
  -- scanning succeeds or not, and then the parser decides
  have hread {placed : List Placed} (hscan : Token.scan text = .ok placed) :
      read t text = .ok e ↔ Derives t .conditions (placed.map Prod.fst) [] e := by
    rw [read, hscan]
    exact parse_eq_ok_iff t placed e
  constructor
  · intro h
    cases hscan : Token.scan text with
    | error error =>
      rw [read, hscan] at h
      cases h
    | ok placed => exact ⟨_, Token.scans_iff.mpr ⟨placed, hscan, rfl⟩, (hread hscan).mp h⟩
  · rintro ⟨ts, hscans, hderives⟩
    obtain ⟨placed, hscan, rfl⟩ := Token.scans_iff.mp hscans
    exact (hread hscan).mpr hderives

/-- A letter is read as what it stands for. -/
theorem read_letter (t : Parameter.Table) {c : Char} (hc : Token.isSkipped c = false)
    (hfirst : Token.first? [c] = some (.word [c], 1)) : read t [c] = .ok (ofWord t [c]) := by
  have hscans : Token.Scans [c] [.word [c]] := .token hc hfirst .nil
  have hatom : Derives t .atom [.word [c]] [] (ofWord t [c]) := .word [c] (by simp)
  exact read_eq_ok_iff.mpr ⟨[.word [c]], hscans, hatom.conditions_of_atom⟩

theorem read_x (t : Parameter.Table) : read t ['x'] = .ok .x := read_letter t rfl rfl

theorem read_y (t : Parameter.Table) : read t ['y'] = .ok .y := read_letter t rfl rfl

/-- What can be read closes only parentheses of its own. -/
theorem closesOwn_of_read (h : read t text = .ok e) : ClosesOwn text := by
  obtain ⟨ts, hscans, hderives⟩ := read_eq_ok_iff.mp h
  exact ⟨0, hscans.brackets_eq ▸ hderives.balanced⟩

/-- The tokens of a difference of two sides. -/
theorem scans_difference {ts : List Token} : Token.Scans (Form.difference lhs rhs) ts ↔
    ∃ u v, ts = .leftParen :: (u ++ .rightParen :: .minus :: .leftParen :: (v ++ [.rightParen])) ∧
      Token.Scans lhs u ∧ Token.Scans rhs v := by
  -- the text with its parentheses in the open, one after the other
  have htext : Form.difference lhs rhs =
      '(' :: (lhs ++ ')' :: '-' :: '(' :: (rhs ++ [')'])) := by
    simp [Form.difference]
  rw [htext, Token.scans_opening]
  constructor
  · rintro ⟨_, rfl, hrest⟩
    obtain ⟨u, _, rfl, hu, hminus⟩ := Token.scans_append_closing.mp hrest
    obtain ⟨_, rfl, hopening⟩ := Token.scans_minus.mp hminus
    obtain ⟨_, rfl, hright⟩ := Token.scans_opening.mp hopening
    obtain ⟨v, _, rfl, hv, hnil⟩ := Token.scans_append_closing.mp hright
    cases hnil
    exact ⟨u, v, rfl, hu, hv⟩
  · rintro ⟨u, v, rfl, hu, hv⟩
    refine ⟨_, rfl, Token.scans_append_closing.mpr ⟨u, _, rfl, hu, ?_⟩⟩
    refine Token.scans_minus.mpr ⟨_, rfl, Token.scans_opening.mpr ⟨_, rfl, ?_⟩⟩
    exact Token.scans_append_closing.mpr ⟨v, [], rfl, hv, .nil⟩

/-- **If both sides can be read, their difference is read as the difference.** -/
theorem read_difference {a b : Expr} (ha : read t lhs = .ok a) (hb : read t rhs = .ok b) :
    read t (Form.difference lhs rhs) = .ok (.binary .sub a b) := by
  obtain ⟨u, hu, ha⟩ := read_eq_ok_iff.mp ha
  obtain ⟨v, hv, hb⟩ := read_eq_ok_iff.mp hb
  refine read_eq_ok_iff.mpr ⟨_, scans_difference.mpr ⟨u, v, rfl, hu, hv⟩, ?_⟩
  -- each side is read with its parentheses, and what stands behind a parenthesis does not matter
  have hleft {after : List Token} : Derives t .atom (.leftParen :: u ++ [.rightParen]) after a :=
    .parens (ha.congr_after nofun)
  have hright : Derives t .atom (.leftParen :: v ++ [.rightParen]) [] b :=
    .parens (hb.congr_after nofun)
  have hsum : Derives t .sum
      ((.leftParen :: u ++ [.rightParen]) ++ .minus :: (.leftParen :: v ++ [.rightParen])) []
      (.binary .sub a b) :=
    .sub (.ofProduct (.ofSigned (.ofPower (.ofAtom hleft)))) (.ofSigned (.ofPower (.ofAtom hright)))
  simpa using Derives.ofChain (.ofSum hsum)

/-- **If the difference can be read, and the sides close only their own parentheses, both
sides can be read.** -/
theorem exists_read_of_difference (h : read t (Form.difference lhs rhs) = .ok e)
    (hl : ClosesOwn lhs) (hr : ClosesOwn rhs) :
    (∃ a, read t lhs = .ok a) ∧ ∃ b, read t rhs = .ok b := by
  obtain ⟨ts, hscans, hderives⟩ := read_eq_ok_iff.mp h
  obtain ⟨u, v, rfl, hu, hv⟩ := scans_difference.mp hscans
  obtain ⟨m, hm⟩ := hl
  obtain ⟨n, hn⟩ := hr
  rw [hu.brackets_eq] at hm
  rw [hv.brackets_eq] at hn
  -- what the sides leave open, the two closing parentheses do not close
  have hwhole : Parenthesis.depth? 0 (Token.brackets (.leftParen :: (u ++ .rightParen :: .minus ::
      .leftParen :: (v ++ [.rightParen])))) = some (0 + m + n) := by
    rw [Token.depth?_pair hm]
    exact Token.depth?_pair hn (0 + m)
  obtain ⟨rfl, rfl⟩ : m = 0 ∧ n = 0 := by
    have hzero : 0 + m + n = 0 := Option.some.inj (hwhole.symm.trans hderives.balanced)
    omega
  obtain ⟨a, ha⟩ := hderives.enclosed (p := []) rfl hm
  obtain ⟨b, hb⟩ := hderives.enclosed (p := .leftParen :: u ++ [.rightParen, .minus]) (q := [])
    (by simp) hn
  exact ⟨⟨a, read_eq_ok_iff.mpr ⟨u, hu, ha⟩⟩, b, read_eq_ok_iff.mpr ⟨v, hv, hb⟩⟩

end Expr

/-! ### The equation of a relation -/

namespace Equation

/-- The text of an equation as its form is taken from it, if it has no braces. -/
def lowered (raw : String) : List Char := Text.trim (Text.lowercase raw.toList)

section

variable {raw : String} {lhs rhs : List Char}

/-- The equation of a text with one equality sign is that of the difference of the sides. -/
theorem compile_of_sides (probe : Float) (hbrace : '\x7b' ∉ raw.toList)
    (hexplicit : Form.explicitBody? (lowered raw) = none)
    (hsides : Form.equalities (lowered raw) = [(lhs, rhs)]) :
    compile raw probe = ofForm raw probe ⟨.relation, Form.difference lhs rhs, none⟩ := by
  -- the sign is found again in the text as it was typed, where points are looked for
  have hmem : '=' ∈ lowered raw := by
    have hside : (lhs, rhs) ∈ Form.equalities (lowered raw) := hsides ▸ List.mem_cons_self
    rw [(Form.mem_equalities.mp hside).1]
    exact List.mem_append_right lhs List.mem_cons_self
  have hequality : '=' ∈ raw.toList :=
    Text.mem_of_mem_lowercase ⟨by decide, by decide, by decide⟩
      ((Text.mem_trim (by decide)).mp hmem)
  -- lowering letters makes no brace
  have hplain : '\x7b' ∉ Text.lowercase raw.toList := fun h =>
    hbrace (Text.mem_of_mem_lowercase ⟨by decide, by decide, by decide⟩ h)
  rw [compile, PointLiteral.read?_of_equality hequality]
  dsimp only
  rw [Form.split_of_sides hplain hexplicit hsides]

/-- How a relation is drawn whose sides can be read, depending on whether it looks linear. -/
theorem compile_of_read {probe : Float} {a b : Expr} {linear : Bool} (hbrace : '\x7b' ∉ raw.toList)
    (hexplicit : Form.explicitBody? (lowered raw) = none)
    (hsides : Form.equalities (lowered raw) = [(lhs, rhs)])
    (ha : ∀ t, Expr.read t lhs = .ok a) (hb : ∀ t, Expr.read t rhs = .ok b)
    (hlooks : ∀ env : Char → Float,
      Formula.looksLinear ⟨.binary .sub a b, none⟩ env probe = linear) :
    (compile raw probe).classification = (bif linear then .linearInY else .implicit) ∧
      (compile raw probe).outcome = .ok ⟨.binary .sub a b, none⟩ := by
  let form : Form := ⟨.relation, Form.difference lhs rhs, none⟩
  have hread : readForm (parametersOf form) form = .ok ⟨.binary .sub a b, none⟩ := by
    rw [readForm, Expr.read_difference (ha _) (hb _)]
  have hcompile : compile raw probe = ofForm raw probe form :=
    compile_of_sides probe hbrace hexplicit hsides
  have hclass : classifyRead .relation ⟨.binary .sub a b, none⟩ (parametersOf form) probe =
      bif linear then .linearInY else .implicit := by
    rw [classifyRead, hlooks]
    cases linear <;> rfl
  rw [hcompile, ofForm, hread]
  exact ⟨hclass, rfl⟩

/-- What a form without restriction gives is what its body is read as. -/
theorem outcome_ofForm (probe : Float) (kind : FormKind) (body : List Char) :
    (ofForm raw probe ⟨kind, body, none⟩).outcome =
      (Expr.read (ofForm raw probe ⟨kind, body, none⟩).parameters body).map fun math =>
        ⟨math, none⟩ := by
  have hparameters : (ofForm raw probe ⟨kind, body, none⟩).parameters =
      parametersOf ⟨kind, body, none⟩ := by
    unfold ofForm
    dsimp only
    split <;> rfl
  rw [hparameters]
  unfold ofForm readForm
  dsimp only
  cases Expr.read (parametersOf ⟨kind, body, none⟩) body <;> rfl

end

/-- **A relation is read side by side, if its sides keep their parentheses to themselves.**
Take a text without braces, with no value behind `y =` or `f(x) =`, and with one equality
sign. It can be read and both sides close only their own parentheses exactly if both sides
can be read by themselves, with the parameters of the whole text. Then it is read as their
difference. -/
theorem compile_relation (raw : String) (probe : Float) (lhs rhs : List Char)
    (hbrace : '\x7b' ∉ raw.toList) (hexplicit : Form.explicitBody? (lowered raw) = none)
    (hsides : Form.equalities (lowered raw) = [(lhs, rhs)]) :
    let eq := compile raw probe
    ((eq.isValid = true ∧ ClosesOwn lhs ∧ ClosesOwn rhs) ↔
      ∃ a b, Expr.read eq.parameters lhs = .ok a ∧ Expr.read eq.parameters rhs = .ok b) ∧
    ∀ a b, Expr.read eq.parameters lhs = .ok a → Expr.read eq.parameters rhs = .ok b →
      eq.outcome = .ok ⟨.binary .sub a b, none⟩ := by
  intro eq
  have houtcome : eq.outcome =
      (Expr.read eq.parameters (Form.difference lhs rhs)).map fun math => ⟨math, none⟩ := by
    have heq : eq = ofForm raw probe ⟨.relation, Form.difference lhs rhs, none⟩ :=
      compile_of_sides probe hbrace hexplicit hsides
    rw [heq]
    exact outcome_ofForm probe .relation (Form.difference lhs rhs)
  have hboth (a b : Expr) (ha : Expr.read eq.parameters lhs = .ok a)
      (hb : Expr.read eq.parameters rhs = .ok b) : eq.outcome = .ok ⟨.binary .sub a b, none⟩ := by
    rw [houtcome, Expr.read_difference ha hb]
    rfl
  refine ⟨⟨?_, ?_⟩, hboth⟩
  · rintro ⟨hvalid, hl, hr⟩
    cases hread : Expr.read eq.parameters (Form.difference lhs rhs) with
    | error error =>
      rw [hread] at houtcome
      rw [isValid, houtcome] at hvalid
      cases hvalid
    | ok e =>
      obtain ⟨⟨a, ha⟩, b, hb⟩ := Expr.exists_read_of_difference hread hl hr
      exact ⟨a, b, ha, hb⟩
  · rintro ⟨a, b, ha, hb⟩
    refine ⟨?_, Expr.closesOwn_of_read ha, Expr.closesOwn_of_read hb⟩
    rw [isValid, hboth a b ha hb]

/-- `x=y` is read as the difference of its sides. -/
theorem compile_diagonal :
    (compile "x=y" standardProbe).outcome = .ok ⟨.binary .sub .x .y, none⟩ := by
  have hbrace : '\x7b' ∉ "x=y".toList := by decide
  have hexplicit : Form.explicitBody? (lowered "x=y") = none := by decide +kernel
  have hsides : Form.equalities (lowered "x=y") = [(['x'], ['y'])] := by decide +kernel
  exact (compile_relation "x=y" standardProbe ['x'] ['y'] hbrace hexplicit hsides).2 .x .y
    (Expr.read_x _) (Expr.read_y _)

/-- **A side may close a parenthesis that is not its own.** The text `x)*(y=1` is read, as
`x*y-1`, though its left side cannot be read. -/
theorem compile_crossed :
    let eq := compile "x)*(y=1" standardProbe
    Form.equalities (lowered "x)*(y=1") = [("x)*(y".toList, ['1'])] ∧
      eq.outcome = .ok ⟨.binary .sub (.mul .x .y) (.constant 1.0), none⟩ ∧
      ∀ a, Expr.read eq.parameters "x)*(y".toList ≠ .ok a := by
  intro eq
  have hbrace : '\x7b' ∉ "x)*(y=1".toList := by decide
  have hexplicit : Form.explicitBody? (lowered "x)*(y=1") = none := by decide +kernel
  have hsides : Form.equalities (lowered "x)*(y=1") = [("x)*(y".toList, ['1'])] := by
    decide +kernel
  have heq : eq = ofForm "x)*(y=1" standardProbe
      ⟨.relation, Form.difference "x)*(y".toList ['1'], none⟩ :=
    compile_of_sides standardProbe hbrace hexplicit hsides
  refine ⟨hsides, ?_, fun a ha => ?_⟩
  · have hscans : Token.Scans (Form.difference "x)*(y".toList ['1'])
        [.leftParen, .word ['x'], .rightParen, .star, .leftParen, .word ['y'], .rightParen, .minus,
          .leftParen, .number 1.0, .rightParen] := by
      repeat' first | exact .nil | refine .token rfl rfl ?_
    have hparens {x : Token} {a : Expr} (after : List Token)
        (h : Expr.Derives eq.parameters .atom [x] (.rightParen :: after) a) :
        Expr.Derives eq.parameters .signed [.leftParen, x, .rightParen] after a :=
      .ofPower (.ofAtom (.parens (u := [x]) h.conditions_of_atom))
    have hproduct := (Expr.Derives.ofSigned (hparens _ (.word ['x'] (by decide)))).mul
      (hparens [.minus, .leftParen, .number 1.0, .rightParen] (.word ['y'] (by decide)))
    have hone := Expr.Derives.ofSigned (hparens [] (.number 1.0))
    have hread : Expr.read eq.parameters (Form.difference "x)*(y".toList ['1']) =
        .ok (.binary .sub (.mul .x .y) (.constant 1.0)) :=
      Expr.read_eq_ok_iff.mpr
        ⟨_, hscans, .ofChain (.ofSum ((Expr.Derives.ofProduct hproduct).sub hone))⟩
    rw [heq] at hread ⊢
    rw [outcome_ofForm, hread]
    rfl
  · obtain ⟨n, hn⟩ := Expr.closesOwn_of_read ha
    cases hn

end Equation

end CurvePlot
