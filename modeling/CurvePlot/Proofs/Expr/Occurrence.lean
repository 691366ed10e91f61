import CurvePlot.Expr.Eval
import CurvePlot.Proofs.Equation.Relation
/-!
# Where the second coordinate occurs

Whether an expression uses `y` can be told from its text: it does exactly if the letter
stands anywhere in it (`dependsOnY_iff_of_read`). No other token than a word holds a letter.
A word that is read letter by letter holds a `y` exactly if one of its factors is the
coordinate, and the words that are not read so, the constants and the names of functions,
hold none.

What does not use `y` has the same value at every height (`eval_of_dependsOnY`), in whatever
numbers it is computed.
-/

namespace CurvePlot

/-! ### Texts -/

namespace Token

/-- The letters of a token: only words have any. -/
def wordLetters : Token → List Char
  | word letters => letters
  | _ => []

/-- Symbols have no letters. -/
theorem wordLetters_of_mem_symbols : ∀ s ∈ symbols, s.2.wordLetters = [] := by
  simp [symbols, wordLetters]

/-- A letter stands in a spelling exactly if its token is a word with it. -/
theorem Spelling.mem_iff {run : List Char} {x : Token} (h : Spelling run x) {c : Char}
    (hc : c.isAlpha = true) : c ∈ run ↔ c ∈ x.wordLetters := by
  -- a spelling without letters is that of a token without letters
  have hnone {run : List Char} (hrun : ∀ d ∈ run, d.isAlpha = false) : c ∉ run :=
    fun hmem => Bool.false_ne_true ((hrun c hmem).symm.trans hc)
  cases h with
  | digits v hdigits =>
    refine iff_of_false (hnone fun d hd => ?_) List.not_mem_nil
    exact not_alpha_of_isNumeric (hdigits d hd)
  | letters halpha => exact Iff.rfl
  | symbol hmem =>
    rw [wordLetters_of_mem_symbols _ hmem]
    refine iff_of_false (hnone fun d hd => ?_) List.not_mem_nil
    have hall := List.all_eq_true.mp (not_alpha_of_mem_symbols _ hmem) d hd
    rwa [Bool.not_eq_true'] at hall

/-- **A letter stands in a text exactly if it stands in one of its words.** -/
theorem Scans.mem_iff {text : List Char} {ts : List Token} (h : Scans text ts) {c : Char}
    (hc : c.isAlpha = true) : c ∈ text ↔ c ∈ ts.flatMap wordLetters := by
  induction h with
  | nil => exact Iff.rfl
  | @skip d rest ts hd _ ih =>
    -- what is skipped is no letter
    have hne : c ≠ d := by
      rintro rfl
      exact Bool.false_ne_true ((not_alpha_of_isSkipped hd).symm.trans hc)
    rw [List.mem_cons, or_iff_right hne, ih]
  | @token d rest x count ts hd hfirst hrest ih =>
    obtain ⟨run, behind, htext, rfl, hne, hspelling⟩ := spelling_of_first? hfirst
    -- behind the first sign comes the rest of the run, and then what is read later
    have hdrop : rest.drop (run.length - 1) = behind := by
      cases run with
      | nil => exact absurd rfl hne
      | cons d run =>
        obtain ⟨rfl, rfl⟩ := List.cons.inj htext
        exact List.drop_left
    rw [hdrop] at ih
    rw [htext, List.mem_append, List.flatMap_cons, List.mem_append, hspelling.mem_iff hc, ih]

end Token

/-! ### Expressions -/

namespace Expr

variable {t : Parameter.Table} {k : Phrase} {u after : List Token} {e last : Expr}

/-- A letter is read as the coordinate `y` exactly if it is this letter. -/
theorem dependsOnY_ofLetter (t : Parameter.Table) (c : Char) :
    (ofLetter t c).dependsOnY = true ↔ c = 'y' := by
  unfold ofLetter
  split
  · next hx =>
    rw [hx]
    exact iff_of_false Bool.false_ne_true (by decide)
  · split
    · next hy => exact iff_of_true rfl hy
    · next hy => split <;> exact iff_of_false Bool.false_ne_true hy

/-- A product uses `y` exactly if a factor does. -/
theorem dependsOnY_foldl_mul (a : Expr) (factors : List Expr) :
    (factors.foldl .mul a).dependsOnY = (a.dependsOnY || factors.any dependsOnY) := by
  induction factors generalizing a with
  | nil => rw [List.foldl_nil, List.any_nil, Bool.or_false]
  | cons b factors ih =>
    rw [List.foldl_cons, ih, List.any_cons, ← Bool.or_assoc]
    rfl

/-- A word uses `y` exactly if the letter stands in it. -/
theorem dependsOnY_ofWord (t : Parameter.Table) (word : List Char) :
    (ofWord t word).dependsOnY = true ↔ 'y' ∈ word := by
  unfold ofWord
  split
  · -- neither constant has the letter in its name
    next hpi =>
    rw [hpi]
    exact iff_of_false Bool.false_ne_true (by decide)
  · split
    · next he =>
      rw [he]
      exact iff_of_false Bool.false_ne_true (by decide)
    · -- otherwise it is a product of its letters
      cases word with
      | nil => exact iff_of_false Bool.false_ne_true List.not_mem_nil
      | cons c word =>
        rw [List.map_cons]
        dsimp only
        rw [dependsOnY_foldl_mul, Bool.or_eq_true, dependsOnY_ofLetter, List.any_map,
          List.any_eq_true, List.mem_cons, eq_comm]
        refine or_congr_right ⟨?_, fun hy => ⟨'y', hy, (dependsOnY_ofLetter t 'y').mpr rfl⟩⟩
        rintro ⟨d, hd, hdepends⟩
        exact (dependsOnY_ofLetter t d).mp hdepends ▸ hd

/-- No function has the letter in its name. -/
theorem not_mem_of_ofName? {word : List Char} {f : Elementary}
    (h : Elementary.ofName? (String.ofList word) = some f) : 'y' ∉ word := by
  obtain ⟨before, later, hnames, -⟩ := List.lookup_eq_some_iff.mp h
  -- the table of names is finite
  have hall : ∀ p ∈ Elementary.names, 'y' ∉ p.1.toList := by decide +kernel
  have hmem : (String.ofList word, f) ∈ Elementary.names := by
    rw [hnames]
    exact List.mem_append_right before List.mem_cons_self
  have hword := hall _ hmem
  rwa [String.toList_ofList] at hword

/-- The side that stands last in a chain of links is a part of it. -/
theorem Derives.dependsOnY_last (h : Derives t (.links last) u after e)
    (hy : last.dependsOnY = true) : e.dependsOnY = true := by
  cases h with
  | link => rw [dependsOnY, hy, Bool.or_true]
  | moreLinks => rw [dependsOnY, dependsOnY, hy, Bool.or_true, Bool.or_true]

/-- **A phrase uses `y` exactly if the letter stands in one of its words.** -/
theorem Derives.dependsOnY_iff (h : Derives t k u after e) :
    e.dependsOnY = true ↔ 'y' ∈ u.flatMap Token.wordLetters := by
  -- a token that stands between two parts, or around one, has no letters
  have hsides {u v : List Token} {x : Token} (hx : x.wordLetters = []) :
      'y' ∈ (u ++ x :: v).flatMap Token.wordLetters ↔
        'y' ∈ u.flatMap Token.wordLetters ∨ 'y' ∈ v.flatMap Token.wordLetters := by
    rw [List.flatMap_append, List.flatMap_cons, hx, List.nil_append, List.mem_append]
  have hclosed (u : List Token) : 'y' ∈ (u ++ [Token.rightParen]).flatMap Token.wordLetters ↔
      'y' ∈ u.flatMap Token.wordLetters := (hsides rfl).trans (or_iff_left List.not_mem_nil)
  induction h with
  | ofChain _ ih | ofSum _ ih | ofLinks _ ih | ofProduct _ ih | ofSigned _ ih | ofPower _ ih
  | ofAtom _ ih | plus _ ih | minus _ ih => exact ih
  | join _ _ _ iha ihb | link _ _ _ iha ihb | add _ _ iha ihb | sub _ _ iha ihb
  | mul _ _ iha ihb | div _ _ iha ihb | pow _ _ iha ihb =>
    rw [dependsOnY, Bool.or_eq_true]
    exact (or_congr iha ihb).trans (hsides rfl).symm
  | moreLinks op hlinks _ iha ihb =>
    rw [dependsOnY, dependsOnY, Bool.or_eq_true, Bool.or_eq_true]
    refine Iff.trans ?_ ((or_congr iha ihb).trans (hsides rfl).symm)
    -- the side between two comparisons stands in both
    refine ⟨?_, Or.imp id .inr⟩
    rintro (ha | hlast | hb)
    · exact .inl ha
    · exact .inl (hlinks.dependsOnY_last hlast)
    · exact .inr hb
  | juxtapose _ _ _ iha ihb =>
    rw [dependsOnY, Bool.or_eq_true, List.flatMap_append, List.mem_append]
    exact or_congr iha ihb
  | number | pi => exact iff_of_false Bool.false_ne_true List.not_mem_nil
  | parens _ ih => exact ih.trans (hclosed _).symm
  | @call word u after f a hf _ ih =>
    rw [dependsOnY, List.cons_append, List.flatMap_cons, List.mem_append]
    -- the name of the function is a word as well
    exact (ih.trans (hclosed u).symm).trans (or_iff_right (not_mem_of_ofName? hf)).symm
  | word letters =>
    rw [List.flatMap_singleton]
    exact dependsOnY_ofWord t letters

/-- **What a text is read as uses `y` exactly if the letter stands in the text.** -/
theorem dependsOnY_iff_of_read {text : List Char} (h : read t text = .ok e) :
    e.dependsOnY = true ↔ 'y' ∈ text := by
  obtain ⟨ts, hscans, hderives⟩ := read_eq_ok_iff.mp h
  rw [hderives.dependsOnY_iff, hscans.mem_iff rfl]

/-! ### Values -/

/-- **An expression without `y` has the same value at every height.** -/
theorem eval_of_dependsOnY {α : Type} [Scalar α] {env : Char → α} {x : α}
    (h : e.dependsOnY = false) (y y' : α) : e.eval env x y = e.eval env x y' := by
  induction e with
  -- only a `y` has no such value, and there is none; everything else goes by the operands
  | constant | x | parameter => rfl
  | y => cases h
  | neg e ih => rw [eval, eval, ih h]
  | call f e ih => rw [eval, eval, ih h]
  | binary op a b iha ihb =>
    obtain ⟨ha, hb⟩ := Bool.or_eq_false_iff.mp h
    rw [eval, eval, iha ha, ihb hb]
  | compare op a b iha ihb =>
    obtain ⟨ha, hb⟩ := Bool.or_eq_false_iff.mp h
    rw [eval, eval, iha ha, ihb hb]
  | logical op a b iha ihb =>
    obtain ⟨ha, hb⟩ := Bool.or_eq_false_iff.mp h
    rw [eval, eval, iha ha, ihb hb]

end Expr

end CurvePlot
