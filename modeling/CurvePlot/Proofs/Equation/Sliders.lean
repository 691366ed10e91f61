import CurvePlot.Proofs.Equation.Compile
import CurvePlot.Proofs.Equation.Relation
import CurvePlot.Proofs.Parameter.Letters
/-!
# Every slider moves something

The parameters of an equation are found in its text before it is read, and reading knows
nothing of how they were found. Still the sliders that an equation shows are those that its
expressions use (`compile_sliders`): a letter that was found stands in some word, that word
is no function in front of a parenthesis and no constant, so it is read letter by letter and
the letter becomes a parameter (`Derives.mem_parameters`). The other way round, no letter
becomes a parameter that the table does not have (`Derives.contains`).
-/

namespace CurvePlot

/-! ### What a phrase uses -/

namespace Expr

variable {t : Parameter.Table} {k : Phrase} {u after : List Token} {e last : Expr} {c : Char}

theorem contains_of_mem_ofLetter {d : Char} (h : c ∈ (ofLetter t d).parameters) :
    t.contains c = true := by
  unfold ofLetter at h
  split at h
  · cases h
  · split at h
    · cases h
    · split at h
      · next hd =>
        obtain rfl := List.mem_singleton.mp h
        exact hd
      · cases h

/-- A product uses what its factors use. -/
theorem parameters_foldl_mul (a : Expr) (factors : List Expr) :
    (factors.foldl .mul a).parameters = a.parameters ++ factors.flatMap parameters := by
  induction factors generalizing a with
  | nil => rw [List.foldl_nil, List.flatMap_nil, List.append_nil]
  | cons b factors ih =>
    rw [List.foldl_cons, ih, List.flatMap_cons, ← List.append_assoc]
    rfl

/-- A word that is no constant uses what its letters use. -/
theorem parameters_ofWord {word : List Char} (hpi : word ≠ ['p', 'i']) (he : word ≠ ['e']) :
    (ofWord t word).parameters = word.flatMap fun d => (ofLetter t d).parameters := by
  unfold ofWord
  rw [if_neg hpi, if_neg he]
  cases word with
  | nil => rfl
  | cons d word =>
    rw [List.map_cons, List.flatMap_cons, ← List.flatMap_map]
    exact parameters_foldl_mul _ _

theorem contains_of_mem_ofWord {word : List Char} (h : c ∈ (ofWord t word).parameters) :
    t.contains c = true := by
  by_cases hpi : word = ['p', 'i']
  · rw [ofWord, if_pos hpi] at h
    cases h
  · by_cases he : word = ['e']
    · rw [ofWord, if_neg hpi, if_pos he] at h
      cases h
    · rw [parameters_ofWord hpi he, List.mem_flatMap] at h
      obtain ⟨d, -, hd⟩ := h
      exact contains_of_mem_ofLetter hd

/-- **A letter that was found in a word becomes a parameter where the word is read.** -/
theorem mem_parameters_ofWord {word : List Char} (h : c ∈ Parameter.letters word)
    (ht : t.contains c = true) : c ∈ (ofWord t word).parameters := by
  -- nothing is found in the names of the constants
  have hpi : word ≠ ['p', 'i'] := by
    rintro rfl
    rw [Parameter.letters_of_mem_reservedNames (by decide +kernel)] at h
    cases h
  have he : word ≠ ['e'] := by
    rintro rfl
    obtain ⟨hmem, hname⟩ := Parameter.of_mem_letters h
    obtain rfl := List.mem_singleton.mp hmem
    cases hname
  obtain ⟨hmem, hname⟩ := Parameter.of_mem_letters h
  rw [parameters_ofWord hpi he, List.mem_flatMap]
  refine ⟨c, hmem, ?_⟩
  have hx : c ≠ 'x' := by
    rintro rfl
    cases hname
  have hy : c ≠ 'y' := by
    rintro rfl
    cases hname
  rw [ofLetter, if_neg hx, if_neg hy, if_pos ht]
  exact List.mem_cons_self

/-- The side that stands last in a chain of links is a part of it. -/
theorem Derives.mem_parameters_last (h : Derives t (.links last) u after e)
    (hc : c ∈ last.parameters) : c ∈ e.parameters := by
  cases h with
  | link => exact List.mem_append_right _ hc
  | moreLinks => exact List.mem_append_right _ (List.mem_append_right _ hc)

/-- **No letter becomes a parameter that the table does not have.** -/
theorem Derives.contains (h : Derives t k u after e) (hc : c ∈ e.parameters) :
    t.contains c = true := by
  have hsides {p q : List Char} (hp : c ∈ p → t.contains c = true)
      (hq : c ∈ q → t.contains c = true) (hpq : c ∈ p ++ q) : t.contains c = true :=
    (List.mem_append.mp hpq).elim hp hq
  induction h with
  | ofChain _ ih | ofSum _ ih | ofLinks _ ih | ofProduct _ ih | ofSigned _ ih | ofPower _ ih
  | ofAtom _ ih | plus _ ih => exact ih hc
  | minus _ ih | parens _ ih | call _ _ ih => exact ih hc
  | join _ _ _ iha ihb | link _ _ _ iha ihb | add _ _ iha ihb | sub _ _ iha ihb
  | mul _ _ iha ihb | div _ _ iha ihb | juxtapose _ _ _ iha ihb | pow _ _ iha ihb =>
    exact hsides iha ihb hc
  | moreLinks op hlinks _ iha ihb =>
    -- the side between two comparisons stands in both
    exact hsides iha (hsides (fun hlast => iha (hlinks.mem_parameters_last hlast)) ihb) hc
  | number | pi => cases hc
  | word letters => exact contains_of_mem_ofWord hc

/-- **Every letter that is found in the words of a phrase becomes a parameter,** if the
table has it. -/
theorem Derives.mem_parameters (h : Derives t k u after e) (hc : c ∈ u.flatMap Token.letters)
    (ht : t.contains c = true) : c ∈ e.parameters := by
  have hsides {u v : List Token} {x : Token} (hx : x.letters = [])
      (huv : c ∈ (u ++ x :: v).flatMap Token.letters) :
      c ∈ u.flatMap Token.letters ∨ c ∈ v.flatMap Token.letters := by
    rw [List.flatMap_append, List.flatMap_cons, hx, List.nil_append] at huv
    exact List.mem_append.mp huv
  induction h with
  | ofChain _ ih | ofSum _ ih | ofLinks _ ih | ofProduct _ ih | ofSigned _ ih | ofPower _ ih
  | ofAtom _ ih => exact ih hc
  | plus _ ih | minus _ ih => exact ih hc
  | join _ _ _ iha ihb | link _ _ _ iha ihb | add _ _ iha ihb | sub _ _ iha ihb
  | mul _ _ iha ihb | div _ _ iha ihb | pow _ _ iha ihb =>
    exact List.mem_append.mpr ((hsides rfl hc).imp iha ihb)
  | moreLinks op _ _ iha ihb =>
    refine List.mem_append.mpr ((hsides rfl hc).imp iha fun hv => ?_)
    exact List.mem_append_right _ (ihb hv)
  | juxtapose _ _ _ iha ihb =>
    -- the second factor begins with the token that stands between
    rw [List.flatMap_append] at hc
    exact List.mem_append.mpr ((List.mem_append.mp hc).imp iha ihb)
  | number | pi => cases hc
  | parens _ ih =>
    rcases hsides rfl hc with hu | hnil
    · exact ih hu
    · cases hnil
  | @call word u after f a hf _ ih =>
    have hnone : Token.letters (.word word) = [] := Parameter.letters_of_ofName? hf
    rw [List.cons_append, List.flatMap_cons, hnone, List.nil_append] at hc
    rcases hsides rfl hc with hu | hnil
    · exact ih hu
    · cases hnil
  | word letters =>
    rw [List.flatMap_singleton] at hc
    exact mem_parameters_ofWord hc ht

/-- **What a text uses is what is found in it,** as far as the table has it. -/
theorem mem_parameters_of_read {text : List Char} (h : read t text = .ok e) :
    c ∈ e.parameters → t.contains c = true := by
  obtain ⟨ts, -, hderives⟩ := read_eq_ok_iff.mp h
  exact hderives.contains

theorem mem_parameters_of_mem_letters {text : List Char} (h : read t text = .ok e)
    (hc : c ∈ Parameter.letters text) (ht : t.contains c = true) : c ∈ e.parameters := by
  obtain ⟨ts, hscans, hderives⟩ := read_eq_ok_iff.mp h
  rw [Parameter.letters_eq_of_scans hscans] at hc
  exact hderives.mem_parameters hc ht

end Expr

/-! ### The sliders of an equation -/

namespace Equation

/-- **The sliders of an equation are the parameters that it uses.** Take any text that can
be read and is no point. A letter is in the table of its sliders exactly if it is a
parameter somewhere in its expressions, in the body or in the restriction. Every such
parameter has the value at which its slider stands, and moving the slider moves that value
and no other. -/
theorem compile_sliders (raw : String) (probe : Float)
    (hvalid : (compile raw probe).isValid = true)
    (hcurve : (compile raw probe).point? = none) :
    let eq := compile raw probe
    (∀ c, c ∈ eq.parameters.keys ↔
      c ∈ eq.math.parameters ∨ ∃ limit, eq.limit? = some limit ∧ c ∈ limit.parameters) ∧
    ∀ c ∈ eq.parameters.keys, ∀ x y : Float,
      (∃ p, eq.parameters.get? c = some p ∧
        (Expr.parameter c).eval eq.parameters.value x y = p.value) ∧
      ∀ v, ∃ moved, eq.parameters.set? c v = some moved ∧
        (Expr.parameter c).eval moved.value x y = v ∧
        ∀ d, d ≠ c → (Expr.parameter d).eval moved.value x y =
          (Expr.parameter d).eval eq.parameters.value x y := by
  intro eq
  obtain ⟨form, f, heq, hread, houtcome⟩ := exists_form_of_isValid hvalid hcurve
  have hparameters : eq.parameters = parametersOf form := by
    rw [show eq = ofForm raw probe form from heq]
    exact parameters_ofForm raw probe form
  have hformula : eq.formula = f := by
    rw [formula, show eq.outcome = .ok f from houtcome]
  obtain ⟨hbody, hlimits⟩ := readForm_eq_ok hread
  rw [math, limit?, hformula, hparameters]
  refine ⟨fun c => ?_, fun c hc x y => ?_⟩
  · rw [Parameter.Table.mem_keys_iff]
    constructor
    · intro hc
      rcases contains_parametersOf.mp hc with hletters | ⟨limit, hlimit, hletters⟩
      · exact .inl (Expr.mem_parameters_of_mem_letters hbody hletters hc)
      · rcases hlimits with ⟨hnone, -⟩ | ⟨limit', e, hlimit', he, hreads⟩
        · rw [hnone] at hlimit
          cases hlimit
        · obtain rfl : limit' = limit := Option.some.inj (hlimit'.symm.trans hlimit)
          exact .inr ⟨e, he, Expr.mem_parameters_of_mem_letters hreads hletters hc⟩
    · rintro (hc | ⟨e, he, hc⟩)
      · exact Expr.mem_parameters_of_read hbody hc
      · rcases hlimits with ⟨-, hnone⟩ | ⟨limit, e', -, he', hreads⟩
        · rw [hnone] at he
          cases he
        · obtain rfl : e' = e := Option.some.inj (he'.symm.trans he)
          exact Expr.mem_parameters_of_read hreads hc
  · have hcontains := Parameter.Table.mem_keys_iff.mp hc
    refine ⟨?_, fun v => ?_⟩
    · obtain ⟨p, hp⟩ := Option.isSome_iff_exists.mp hcontains
      refine ⟨p, hp, ?_⟩
      show Parameter.Table.value _ c = p.value
      rw [Parameter.Table.value, hp]
      rfl
    · exact Parameter.Table.exists_set? hcontains v

/-- In `tank` the name of a function is passed over, in `pia` that of a constant. Both words
are read letter by letter, and what is left of each is a parameter. -/
theorem compile_sliders_tank :
    let eq := compile "tank\x7bpia<1\x7d" standardProbe
    eq.isValid = true ∧ eq.point? = none ∧ eq.parameters.keys = ['a', 'k'] ∧
      ∀ c, c ∈ ['a', 'k'] ↔
        c ∈ eq.math.parameters ∨ ∃ limit, eq.limit? = some limit ∧ c ∈ limit.parameters := by
  intro eq
  let form : Form := ⟨.bare, "tank".toList, some "pia<1".toList⟩
  let t := parametersOf form
  let f : Formula := ⟨Expr.ofWord t "tank".toList,
    some (.compare .less (Expr.ofWord t "pia".toList) (.constant 1.0))⟩
  have heq : eq = ofForm "tank\x7bpia<1\x7d" standardProbe form :=
    compile_of_form (by decide +kernel) (by decide +kernel)
  have hbody : Expr.read t "tank".toList = .ok f.math := by
    have hscans : Token.Scans "tank".toList [.word "tank".toList] := .token rfl rfl .nil
    have hword : Expr.Derives t .atom [.word "tank".toList] [] f.math := .word _ (by decide)
    exact Expr.read_eq_ok_iff.mpr ⟨_, hscans, hword.conditions_of_atom⟩
  have hlimit : Expr.read t "pia<1".toList =
      .ok (.compare .less (Expr.ofWord t "pia".toList) (.constant 1.0)) := by
    have hscans : Token.Scans "pia<1".toList
        [.word "pia".toList, .comparison .less, .number 1.0] := by
      repeat' first | exact .nil | refine .token rfl rfl ?_
    have hside {x : Token} {after : List Token} {a : Expr} (h : Expr.Derives t .atom [x] after a) :
        Expr.Derives t .sum [x] after a := .ofProduct (.ofSigned (.ofPower (.ofAtom h)))
    have hpia : Expr.Derives t .atom [.word "pia".toList] [.comparison .less, .number 1.0]
        (Expr.ofWord t "pia".toList) := .word _ (by decide)
    have hone : Expr.Derives t .atom [.number 1.0] [] (.constant 1.0) := .number 1.0
    have hlink := Expr.Derives.link .less (hside hpia) (hside hone)
    exact Expr.read_eq_ok_iff.mpr ⟨_, hscans, .ofChain (.ofLinks hlink)⟩
  have hread : readForm t form = .ok f := by
    unfold readForm
    dsimp only [form]
    rw [hbody]
    dsimp only
    rw [hlimit]
  have hvalid : eq.isValid = true := by
    rw [heq, ofForm, hread]
    rfl
  have hcurve : eq.point? = none := by
    rw [heq]
    exact point?_ofForm _ _ form
  have hkeys : eq.parameters.keys = ['a', 'k'] := by
    rw [heq, parameters_ofForm]
    decide +kernel
  refine ⟨hvalid, hcurve, hkeys, ?_⟩
  rw [← hkeys]
  exact (compile_sliders "tank\x7bpia<1\x7d" standardProbe hvalid hcurve).1

end Equation

end CurvePlot
