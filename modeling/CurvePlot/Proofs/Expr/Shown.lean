import CurvePlot.Proofs.Equation.Lettering
import CurvePlot.Proofs.Equation.Sliders
import CurvePlot.Proofs.Expr.Spelling
import CurvePlot.Proofs.Parameter.Names
import CurvePlot.Proofs.Token.Operand
/-!
# Shown expressions read back

The text of an expression puts every operation in parentheses, except a negation: what stands
in parentheses behind the minus is its operand only. So the text of a negation is no atom, and
a minus in front of a base is read as the sign of the whole power. Everywhere else a negation
may stand without parentheses of its own. `Expr.reread` moves the sign out of every power whose
base is a negation, and `read_text` says that the text of what was read is read as just that.

The text is followed in two steps. It is cut into tokens that can be told from the tree
(`operand_text`), and from these the grammar derives the tree `reread` (`derives_tokens`). Both
need leaves that can be told from their text (`Legible`). The leaves of what is read are such:
a literal has no sign, and a parameter has its letter from the table, where all letters are
names (`legible_of_read`).
-/

namespace CurvePlot

/-! ### Expressions and their texts -/

/-- The token of an operation. -/
def BinaryOp.token : BinaryOp → Token
  | add => .plus | sub => .minus | mul => .star | div => .slash | pow => .caret

/-- An arithmetic operation is shown as its token is written. -/
theorem BinaryOp.mem_spellings (op : BinaryOp) : op.symbol.toList ∈ Token.spellings op.token := by
  cases op <;> decide

/-- A comparison is shown as its token is written. -/
theorem Comparison.mem_spellings (op : Comparison) :
    op.symbol.toList ∈ Token.spellings (.comparison op) := by
  cases op <;> decide

/-- A connective is shown as its token is written. -/
theorem Connective.mem_spellings (op : Connective) :
    op.symbol.toList ∈ Token.spellings (.connective op) := by
  cases op <;> decide

namespace Expr

/-- Everything that stands in an expression, the expression included. -/
def parts : Expr → List Expr
  | constant v => [constant v]
  | x => [x]
  | y => [y]
  | parameter c => [parameter c]
  | neg e => neg e :: e.parts
  | binary op a b => binary op a b :: (a.parts ++ b.parts)
  | compare op a b => compare op a b :: (a.parts ++ b.parts)
  | logical op a b => logical op a b :: (a.parts ++ b.parts)
  | call f e => call f e :: e.parts

/-- **What the text of an expression is read as.** The parentheses of a negation do not cover its
minus, so a minus in front of a base is the sign of the power. -/
def reread : Expr → Expr
  | binary .pow (neg b) c => neg (binary .pow b.reread c.reread)
  | constant v => constant v
  | x => x
  | y => y
  | parameter c => parameter c
  | neg e => neg e.reread
  | binary op a b => binary op a.reread b.reread
  | compare op a b => compare op a.reread b.reread
  | logical op a b => logical op a.reread b.reread
  | call f e => call f e.reread

/-- The token of a shown number. -/
def constantToken (v : Float) : Token :=
  if v == circleConstant then .word ['p', 'i']
  else if v == naturalBase then .word ['e']
  else .number v

/-- The tokens of the text of an expression. -/
def tokens : Expr → List Token
  | constant v => [constantToken v]
  | x => [.word ['x']]
  | y => [.word ['y']]
  | parameter c => [.word [c]]
  | neg e => .minus :: .leftParen :: e.tokens ++ [.rightParen]
  | binary op a b => .leftParen :: (a.tokens ++ op.token :: b.tokens) ++ [.rightParen]
  | compare op a b => .leftParen :: (a.tokens ++ .comparison op :: b.tokens) ++ [.rightParen]
  | logical op a b => .leftParen :: (a.tokens ++ .connective op :: b.tokens) ++ [.rightParen]
  | call f e => .word f.name.toList :: .leftParen :: e.tokens ++ [.rightParen]

/-- **A leaf that can be told from its text:** a finite number without a sign, or a letter that
can name a parameter and is in the table. -/
def Legible (t : Parameter.Table) : Expr → Prop
  | constant v => v.isFinite = true ∧ Double.isNegative v = false
  | parameter c => Parameter.isName c = true ∧ t.contains c = true
  | _ => True

variable {t : Parameter.Table} {e : Expr}

/-- **The text of an expression is faithful unless a negation is raised to a power.** -/
theorem reread_eq_self_iff : e.reread = e ↔ ∀ b c, binary .pow (neg b) c ∉ e.parts := by
  induction e using reread.induct with
  | case1 b c _ _ => exact iff_of_false nofun fun h => h b c List.mem_cons_self
  | case2 v | case3 | case4 | case5 c =>
    exact iff_of_true rfl fun b c h => nomatch List.mem_singleton.mp h
  | case6 e ih | case10 f e ih => simp [reread, parts, ih]
  -- here the left side is no negation under a power, so the tree itself is none of the parts in
  -- question
  | case7 op a b hbase iha ihb =>
    rw [reread]
    · have hself (b' c : Expr) : binary .pow (neg b') c ≠ binary op a b := by
        rintro ⟨⟩
        exact hbase b' rfl rfl
      simp [parts, iha, ihb, hself, forall_and]
    · exact hbase
  | case8 op a b iha ihb | case9 op a b iha ihb => simp [reread, parts, iha, ihb, forall_and]

/-! ### From the text to its tokens -/

/-- A number is shown as a token that is read as the number. -/
theorem operand_constant {v : Float} (h : Legible t (constant v)) :
    Token.Operand (constantText v).toList [constantToken v] := by
  unfold constantText constantToken
  split
  · -- the names of the constants are words
    exact .word (by decide) (List.all_eq_true.mp rfl)
  · split
    · exact .word (by decide) (List.all_eq_true.mp rfl)
    · -- other numbers are written out
      exact .number (Decimal.bare?_plain h.1 h.2)

/-- The name of a function is made of letters. -/
theorem isAlpha_of_mem_name (f : Elementary) : ∀ c ∈ f.name.toList, c.isAlpha = true := by
  have hall : f.name.toList.all Char.isAlpha = true := by cases f <;> decide
  exact List.all_eq_true.mp hall

/-- **The text of an expression is cut into its tokens.** -/
theorem operand_text (h : ∀ q ∈ e.parts, Legible t q) : Token.Operand e.text.toList e.tokens := by
  induction e with
  | constant v => exact operand_constant (h _ List.mem_cons_self)
  | x | y => exact .word (by decide) (List.all_eq_true.mp rfl)
  | parameter c =>
    have halpha := Parameter.isAlpha_of_isName (h _ List.mem_cons_self).1
    have htext : (parameter c).text.toList = [c] := String.toList_singleton c
    rw [htext]
    exact .word (by simp) (by simpa using halpha)
  | neg e ih =>
    rw [parts, List.forall_mem_cons] at h
    have htext : (neg e).text.toList = '-' :: ('(' :: e.text.toList ++ [')']) := by simp [text]
    rw [htext]
    exact (ih h.2).parens.minus
  | binary op a b iha ihb =>
    rw [parts, List.forall_mem_cons, List.forall_mem_append] at h
    have htext : (binary op a b).text.toList =
        '(' :: (a.text.toList ++ op.symbol.toList ++ b.text.toList) ++ [')'] := by simp [text]
    rw [htext]
    exact ((iha h.2.1).join op.mem_spellings (ihb h.2.2)).parens
  | compare op a b iha ihb =>
    rw [parts, List.forall_mem_cons, List.forall_mem_append] at h
    have htext : (compare op a b).text.toList =
        '(' :: (a.text.toList ++ op.symbol.toList ++ b.text.toList) ++ [')'] := by simp [text]
    rw [htext]
    exact ((iha h.2.1).join op.mem_spellings (ihb h.2.2)).parens
  | logical op a b iha ihb =>
    rw [parts, List.forall_mem_cons, List.forall_mem_append] at h
    have htext : (logical op a b).text.toList =
        '(' :: (a.text.toList ++ [' '] ++ op.symbol.toList ++ (' ' :: b.text.toList)) ++ [')'] := by
      simp [text]
    rw [htext]
    -- the blanks around a connective belong to its sides
    exact ((iha h.2.1).beforeBlank.join op.mem_spellings (ihb h.2.2).behindBlank).parens
  | call f e ih =>
    rw [parts, List.forall_mem_cons] at h
    have htext : (call f e).text.toList = f.name.toList ++ ('(' :: e.text.toList ++ [')']) := by
      simp [text]
    rw [htext]
    exact .call (by cases f <;> decide) (isAlpha_of_mem_name f) (ih h.2)

/-! ### From the tokens to the tree -/

/-- The kind of phrase that the text of an expression is. -/
def phrase : Expr → Phrase
  | neg _ => .signed
  | _ => .atom

/-- A text of either kind may stand where a sign may. -/
theorem Derives.signed_of_phrase {u after : List Token} {a : Expr}
    (h : Derives t e.phrase u after a) : Derives t .signed u after a := by
  cases e with
  | neg => exact h
  | _ => exact .ofPower (.ofAtom h)

/-- The constants are finite. -/
theorem isFinite_constants : circleConstant.isFinite = true ∧ naturalBase.isFinite = true := by
  decide +kernel

/-- The constants have no sign. -/
theorem isNegative_constants :
    Double.isNegative circleConstant = false ∧ Double.isNegative naturalBase = false := by
  decide +kernel

/-- One has no sign. -/
theorem isNegative_one : Double.isNegative 1.0 = false := by
  decide +kernel

/-- A shown number is read as the number. -/
theorem derives_constant {v : Float} (h : Legible t (constant v)) {after : List Token}
    (hafter : after.head? ≠ some .leftParen) :
    Derives t .atom [constantToken v] after (constant v) := by
  unfold constantToken
  split
  · -- what compares equal to the constant is the constant, as neither has a sign
    next hpi =>
    rw [Double.eq_of_beq h.1 isFinite_constants.1 h.2 isNegative_constants.1 hpi]
    exact .word _ hafter
  · split
    · next he =>
      rw [Double.eq_of_beq h.1 isFinite_constants.2 h.2 isNegative_constants.2 he]
      exact .word _ hafter
    · -- a literal is read as it was written
      exact .number v

/-- A shown letter is read as the parameter. -/
theorem derives_parameter {c : Char} (h : Legible t (parameter c)) {after : List Token}
    (hafter : after.head? ≠ some .leftParen) :
    Derives t .atom [.word [c]] after (parameter c) := by
  -- its letter is no coordinate, since it is a name, and it is in the table
  have hname := h.1
  have hne {d : Char} (hd : Parameter.isName d = false) : c ≠ d := by
    rintro rfl
    exact Bool.false_ne_true (hd.symm.trans hname)
  have hword : ofWord t [c] = parameter c := by
    rw [ofWord_singleton t (hne rfl), ofLetter, if_neg (hne rfl), if_neg (hne rfl), if_pos h.2]
  exact hword ▸ .word [c] hafter

/-- A text of either kind may be a side of a comparison. -/
theorem Derives.sum_of_phrase {u after : List Token} {a : Expr} (h : Derives t e.phrase u after a) :
    Derives t .sum u after a := .ofProduct (.ofSigned h.signed_of_phrase)

/-- What may have a sign may be a whole text. -/
theorem Derives.conditions_of_signed {u after : List Token} {a : Expr}
    (h : Derives t .signed u after a) : Derives t .conditions u after a :=
  .ofChain (.ofSum (.ofProduct (.ofSigned h)))

/-- Two signed operands with an operation between them. The base of a power has to be an atom. -/
theorem derives_binary (op : BinaryOp) {u v after : List Token} {a b a' : Expr}
    (ha : Derives t a'.phrase u (op.token :: v ++ after) a) (hb : Derives t .signed v after b)
    (hbase : ∀ c, op = .pow → a' = neg c → False) :
    Derives t .conditions (u ++ op.token :: v) after (binary op a b) := by
  cases op with
  | add => exact .ofChain (.ofSum (.add ha.sum_of_phrase (.ofSigned hb)))
  | sub => exact .ofChain (.ofSum (.sub ha.sum_of_phrase (.ofSigned hb)))
  | mul => exact .ofChain (.ofSum (.ofProduct (.mul (.ofSigned ha.signed_of_phrase) hb)))
  | div => exact .ofChain (.ofSum (.ofProduct (.div (.ofSigned ha.signed_of_phrase) hb)))
  | pow =>
    -- the text of everything but a negation is an atom
    cases a' with
    | neg c => exact (hbase c rfl rfl).elim
    | _ => exact .conditions_of_signed (.ofPower (.pow ha hb))

/-- **The grammar derives the reread expression** from the tokens of an expression. -/
theorem derives_tokens (h : ∀ q ∈ e.parts, Legible t q) {after : List Token}
    (hafter : after.head? ≠ some .leftParen) : Derives t e.phrase e.tokens after e.reread := by
  -- no operand inside stands in front of an opening parenthesis
  have hclosing (rest : List Token) : (Token.rightParen :: rest).head? ≠ some .leftParen := by simp
  have hop (op : BinaryOp) (rest : List Token) : (op.token :: rest).head? ≠ some .leftParen := by
    cases op <;> simp [BinaryOp.token]
  -- the recursion of `reread`, which looks through a negation that is raised to a power
  induction e using reread.induct generalizing after with
  | case1 b c ihb ihc =>
    simp only [parts, List.forall_mem_cons, List.forall_mem_append] at h
    obtain ⟨-, ⟨-, hb⟩, hc⟩ := h
    -- the parentheses of the negation are those of the base
    have hbase : Derives t .atom (.leftParen :: b.tokens ++ [.rightParen])
        (.caret :: c.tokens ++ .rightParen :: after) b.reread :=
      .parens (ihb hb (hclosing _)).signed_of_phrase.conditions_of_signed
    have hpower := hbase.pow (ihc hc (hclosing after)).signed_of_phrase
    exact .parens (.conditions_of_signed (.minus (.ofPower hpower)))
  | case2 v => exact derives_constant (h _ List.mem_cons_self) hafter
  | case3 | case4 => exact .word _ hafter
  | case5 c => exact derives_parameter (h _ List.mem_cons_self) hafter
  | case6 e ih =>
    rw [parts, List.forall_mem_cons] at h
    have hinside := (ih h.2 (hclosing after)).signed_of_phrase
    exact .minus (.ofPower (.ofAtom (.parens hinside.conditions_of_signed)))
  | case7 op a b hbase iha ihb =>
    rw [parts, List.forall_mem_cons, List.forall_mem_append] at h
    have hleft : Derives t a.phrase a.tokens (op.token :: b.tokens ++ .rightParen :: after)
        a.reread := iha h.2.1 (hop op _)
    have hright := (ihb h.2.2 (hclosing after)).signed_of_phrase
    rw [reread]
    · exact .parens (derives_binary op hleft hright hbase)
    · exact hbase
  | case8 op a b iha ihb =>
    rw [parts, List.forall_mem_cons, List.forall_mem_append] at h
    have hleft : Derives t .sum a.tokens (.comparison op :: b.tokens ++ .rightParen :: after)
        a.reread := (iha h.2.1 (by simp)).sum_of_phrase
    have hright := (ihb h.2.2 (hclosing after)).sum_of_phrase
    exact .parens (.ofChain (.ofLinks (.link op hleft hright)))
  | case9 op a b iha ihb =>
    rw [parts, List.forall_mem_cons, List.forall_mem_append] at h
    have hleft : Derives t .conditions a.tokens (.connective op :: b.tokens ++ .rightParen :: after)
        a.reread := (iha h.2.1 (by simp)).signed_of_phrase.conditions_of_signed
    have hright := (ihb h.2.2 (hclosing after)).sum_of_phrase
    exact .parens (.join op hleft (.ofSum hright))
  | case10 f e ih =>
    rw [parts, List.forall_mem_cons] at h
    have hname : Elementary.ofName? (String.ofList f.name.toList) = some f := by
      rw [String.ofList_toList]
      exact Elementary.ofName?_name f
    have hinside := (ih h.2 (hclosing after)).signed_of_phrase
    exact .call hname hinside.conditions_of_signed

/-! ### What texts are read as -/

/-- A parameter that stands in an expression is one of its parameters. -/
theorem mem_parameters_of_mem_parts {c : Char} (h : parameter c ∈ e.parts) : c ∈ e.parameters := by
  induction e with
  | constant | x | y => cases List.mem_singleton.mp h
  | parameter d =>
    cases List.mem_singleton.mp h
    exact List.mem_cons_self
  | neg e ih | call f e ih =>
    rw [parts] at h
    exact ih (List.mem_of_ne_of_mem (by simp) h)
  | binary op a b iha ihb | compare op a b iha ihb | logical op a b iha ihb =>
    rw [parts] at h
    have hmem := List.mem_append.mp (List.mem_of_ne_of_mem (by simp) h)
    exact List.mem_append.mpr (hmem.imp iha ihb)

/-- The part of a chain that stands last in it. -/
theorem Derives.parts_last {k : Expr} {u after : List Token} (h : Derives t (.links k) u after e)
    {q : Expr} (hq : q ∈ k.parts) : q ∈ e.parts := by
  cases h with
  | link => simp [parts, hq]
  | moreLinks => simp [parts, hq]

/-- The number that stands in a leaf has no sign, if there is one. -/
def SignFree : Expr → Prop
  | constant v => Double.isNegative v = false
  | _ => True

/-- A letter is read as a leaf without a sign. -/
theorem signFree_ofLetter (t : Parameter.Table) (c : Char) :
    ∀ q ∈ (ofLetter t c).parts, SignFree q := by
  unfold ofLetter
  -- the letter of a coordinate, a parameter, or an unknown one
  split
  · exact List.forall_mem_singleton.mpr trivial
  · split
    · exact List.forall_mem_singleton.mpr trivial
    · split
      · exact List.forall_mem_singleton.mpr trivial
      · exact List.forall_mem_singleton.mpr isNegative_one

/-- A product of leaves without signs has none. -/
theorem signFree_foldl_mul {a : Expr} {factors : List Expr} (ha : ∀ q ∈ a.parts, SignFree q)
    (hfactors : ∀ b ∈ factors, ∀ q ∈ b.parts, SignFree q) :
    ∀ q ∈ (factors.foldl .mul a).parts, SignFree q := by
  induction factors generalizing a with
  | nil => exact ha
  | cons b factors ih =>
    rw [List.forall_mem_cons] at hfactors
    refine ih ?_ hfactors.2
    rw [parts, List.forall_mem_cons, List.forall_mem_append]
    exact ⟨trivial, ha, hfactors.1⟩

/-- A word is read as leaves without signs. -/
theorem signFree_ofWord (t : Parameter.Table) (word : List Char) :
    ∀ q ∈ (ofWord t word).parts, SignFree q := by
  unfold ofWord
  split
  · -- the word is a constant
    exact List.forall_mem_singleton.mpr isNegative_constants.1
  · split
    · exact List.forall_mem_singleton.mpr isNegative_constants.2
    · -- the word is a row of letters
      cases word with
      | nil => exact List.forall_mem_singleton.mpr isNegative_one
      | cons c word =>
        refine signFree_foldl_mul (signFree_ofLetter t c) fun b hb => ?_
        obtain ⟨d, -, rfl⟩ := List.mem_map.mp hb
        exact signFree_ofLetter t d

/-- **No number of a phrase has a sign** if those among its tokens have none. -/
theorem Derives.signFree {k : Phrase} {u after : List Token} (h : Derives t k u after e)
    (hu : ∀ x ∈ u, x.SignFree) : ∀ q ∈ e.parts, SignFree q := by
  -- the induction is on the derivation: every phrase has only the leaves of its parts
  induction h with
  | ofChain _ ih | ofSum _ ih | ofLinks _ ih | ofProduct _ ih | ofSigned _ ih | ofPower _ ih
  | ofAtom _ ih => exact ih hu
  | plus _ ih => exact ih (List.forall_mem_cons.mp hu).2
  | minus _ ih =>
    rw [parts, List.forall_mem_cons]
    exact ⟨trivial, ih (List.forall_mem_cons.mp hu).2⟩
  | parens _ ih =>
    rw [List.cons_append, List.forall_mem_cons, List.forall_mem_append] at hu
    exact ih hu.2.1
  | call _ _ ih =>
    simp only [List.cons_append, List.forall_mem_cons, List.forall_mem_append] at hu
    rw [parts, List.forall_mem_cons]
    exact ⟨trivial, ih hu.2.2.1⟩
  | join _ _ _ iha ihb | link _ _ _ iha ihb | add _ _ iha ihb | sub _ _ iha ihb
  | mul _ _ iha ihb | div _ _ iha ihb | pow _ _ iha ihb =>
    rw [List.forall_mem_append, List.forall_mem_cons] at hu
    rw [parts, List.forall_mem_cons, List.forall_mem_append]
    exact ⟨trivial, iha hu.1, ihb hu.2.2⟩
  | juxtapose _ _ _ iha ihb =>
    rw [List.forall_mem_append] at hu
    rw [parts, List.forall_mem_cons, List.forall_mem_append]
    exact ⟨trivial, iha hu.1, ihb hu.2⟩
  | moreLinks op hlinks _ iha ihb =>
    rw [List.forall_mem_append, List.forall_mem_cons] at hu
    simp only [parts, List.forall_mem_cons, List.forall_mem_append]
    -- the side between two comparisons stands in both
    exact ⟨trivial, iha hu.1, trivial, fun q hq => iha hu.1 q (hlinks.parts_last hq), ihb hu.2.2⟩
  | number v => exact List.forall_mem_singleton.mpr (hu _ List.mem_cons_self)
  | pi => exact List.forall_mem_singleton.mpr isNegative_constants.1
  | word letters => exact signFree_ofWord _ letters

/-- **The leaves of what is read can be told from its text** if the numbers are finite. -/
theorem legible_of_read {text : List Char} (ht : t.Named) (h : read t text = .ok e)
    (hfinite : ∀ v, constant v ∈ e.parts → v.isFinite = true) : ∀ q ∈ e.parts, Legible t q := by
  obtain ⟨ts, hscans, hderives⟩ := read_eq_ok_iff.mp h
  have hsign := hderives.signFree (hscans.signFree)
  intro q hq
  cases q with
  -- a number of the tree is one of the tokens, and no token has a sign
  | constant v => exact ⟨hfinite v hq, hsign _ hq⟩
  | parameter c =>
    have hcontains := hderives.contains (mem_parameters_of_mem_parts hq)
    exact ⟨ht c hcontains, hcontains⟩
  | _ => trivial

/-! ### Shown expressions -/

/-- **The text of what was read is read as the same expression,** except that a negated base gives
its minus to the power, everywhere at once. So the text is faithful exactly if no negation is
raised to a power. -/
theorem read_text {text : List Char} (ht : t.Named) (h : read t text = .ok e)
    (hfinite : ∀ v, constant v ∈ e.parts → v.isFinite = true) :
    read t e.text.toList = .ok e.reread ∧
      (read t e.text.toList = .ok e ↔ ∀ b c, binary .pow (neg b) c ∉ e.parts) := by
  have hlegible := legible_of_read ht h hfinite
  have hread : read t e.text.toList = .ok e.reread := by
    -- the text is a single operand, with nothing behind it
    have hscans : Token.Scans (e.text.toList ++ []) (e.tokens ++ []) :=
      (operand_text hlegible).scans nofun .nil
    rw [List.append_nil, List.append_nil] at hscans
    have hderives : Derives t e.phrase e.tokens [] e.reread := derives_tokens hlegible nofun
    exact read_eq_ok_iff.mpr ⟨_, hscans, hderives.signed_of_phrase.conditions_of_signed⟩
  refine ⟨hread, ?_⟩
  -- one text is read as one expression
  rw [hread, ← reread_eq_self_iff]
  exact ⟨Except.ok.inj, congrArg Except.ok⟩

/-- The square of a negation is shown like the negation of a square. -/
theorem read_text_square :
    let t := Parameter.Table.empty.register ['a']
    let e := binary .pow (neg (parameter 'a')) (constant 2.0)
    t.Named ∧ read t "(-a)^2".toList = .ok e ∧ (∀ v, constant v ∈ e.parts → v.isFinite = true) ∧
      read t e.text.toList = .ok (neg (binary .pow (parameter 'a') (constant 2.0))) ∧
      read t e.text.toList ≠ .ok e := by
  intro t e
  have ht : t.Named := by
    have hnamed := Parameter.Table.named_empty.register ['a']
    rwa [Parameter.letters_of_isName rfl] at hnamed
  have hread : read t "(-a)^2".toList = .ok e := by
    have hscans : Token.Scans "(-a)^2".toList
        [.leftParen, .minus, .word ['a'], .rightParen, .caret, .number 2.0] :=
      .token rfl rfl (.token rfl rfl (.token rfl rfl (.token rfl rfl (.token rfl rfl
        (.token rfl rfl .nil)))))
    have hbase : Derives t .atom ([.leftParen, .minus, .word ['a']] ++ [.rightParen])
        [.caret, .number 2.0] (neg (parameter 'a')) :=
      .parens (.conditions_of_signed (.minus (.ofPower (.ofAtom (.word ['a'] (by decide))))))
    have hpower := hbase.pow (.ofPower (.ofAtom (.number 2.0)))
    exact read_eq_ok_iff.mpr ⟨_, hscans, .conditions_of_signed (.ofPower hpower)⟩
  have hfinite : ∀ v, constant v ∈ e.parts → v.isFinite = true := by
    intro v hv
    obtain rfl : v = 2.0 := by simpa [e, parts] using hv
    decide +kernel
  obtain ⟨hback, hiff⟩ := read_text ht hread hfinite
  exact ⟨ht, hread, hfinite, hback, fun hsame => hiff.mp hsame _ _ List.mem_cons_self⟩

end Expr

end CurvePlot
