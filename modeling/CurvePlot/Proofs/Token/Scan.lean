import CurvePlot.Token
import Mathlib.Data.List.Basic
import Mathlib.Data.List.TakeWhile
/-!
# Which tokens a text has

`Token.scan` counts positions while it cuts a text. `Scans text ts` says only which tokens
come out: a text is scanned if nothing is left, if it begins with a blank, or if a token
stands at its beginning and what is behind the token is scanned.

A closing parenthesis is a token by itself and belongs to no other one, so texts are
scanned apart in front of it and behind it (`scans_append_closing`).
-/

namespace CurvePlot.Token

/-- **The text is cut into these tokens.** -/
inductive Scans : List Char → List Token → Prop where
  | nil : Scans [] []
  | skip {c : Char} {rest : List Char} {ts : List Token} :
    isSkipped c = true → Scans rest ts → Scans (c :: rest) ts
  | token {c : Char} {rest : List Char} {x : Token} {count : Nat} {ts : List Token} :
    isSkipped c = false → first? (c :: rest) = some (x, count) →
      Scans (rest.drop (count - 1)) ts → Scans (c :: rest) (x :: ts)

theorem Scans.exists_scanFrom {text : List Char} {ts : List Token} (h : Scans text ts)
    (position : Nat) :
    ∃ placed, scanFrom position text = .ok placed ∧ placed.map Prod.fst = ts := by
  induction h generalizing position with
  | nil => exact ⟨[], by rw [scanFrom], rfl⟩
  | skip hc _ ih =>
    obtain ⟨placed, hscan, hts⟩ := ih (position + 1)
    exact ⟨placed, by rw [scanFrom, if_pos hc, hscan], hts⟩
  | @token c rest x count ts hc hfirst _ ih =>
    obtain ⟨placed, hscan, hts⟩ := ih (position + Text.byteLength ((c :: rest).take count))
    refine ⟨(x, position) :: placed, ?_, by rw [List.map_cons, hts]⟩
    rw [scanFrom, if_neg (by rw [hc]; exact Bool.false_ne_true), hfirst]
    dsimp only
    rw [hscan]

theorem scans_of_scanFrom {text : List Char} {position : Nat} {placed : List Placed}
    (h : scanFrom position text = .ok placed) : Scans text (placed.map Prod.fst) := by
  -- behind a token the text is shorter, and so it is behind a blank
  induction position, text using scanFrom.induct generalizing placed with
  | case1 position =>
    rw [scanFrom] at h
    obtain rfl := Except.ok.inj h
    exact .nil
  | case2 position c rest hc ih =>
    rw [scanFrom, if_pos hc] at h
    exact .skip hc (ih h)
  | case3 position c rest hc x count hfirst =>
    rename_i width more hmore ih
    rw [scanFrom, if_neg hc, hfirst] at h
    dsimp only at h
    rw [hmore] at h
    obtain rfl := Except.ok.inj h
    exact .token (Bool.eq_false_iff.mpr hc) hfirst (ih hmore)
  | case4 position c rest hc x count hfirst =>
    rename_i width e hmore _
    rw [scanFrom, if_neg hc, hfirst] at h
    dsimp only at h
    rw [hmore] at h
    cases h
  | case5 position c rest hc hfirst =>
    rw [scanFrom, if_neg hc, hfirst] at h
    cases h

/-- **To scan a text is to cut it into its tokens.** -/
theorem scans_iff {text : List Char} {ts : List Token} :
    Scans text ts ↔ ∃ placed, scan text = .ok placed ∧ placed.map Prod.fst = ts := by
  constructor
  · exact fun h => h.exists_scanFrom 0
  · rintro ⟨placed, hscan, rfl⟩
    exact scans_of_scanFrom hscan

/-! ### The first token -/

/-- The characters are a spelling of the token. -/
inductive Spelling : List Char → Token → Prop where
  | digits {run : List Char} (v : Float) :
    (∀ c ∈ run, isNumeric c = true) → Spelling run (.number v)
  | letters {run : List Char} : (∀ c ∈ run, c.isAlpha = true) → Spelling run (.word run)
  | symbol {run : List Char} {x : Token} : (run, x) ∈ symbols → Spelling run x

theorem not_alpha_of_isSkipped {c : Char} (h : isSkipped c = true) : c.isAlpha = false := by
  unfold isSkipped at h
  simp only [Bool.or_eq_true, beq_iff_eq] at h
  rcases h with (((rfl | rfl) | rfl) | rfl) | rfl <;> rfl

theorem not_alpha_of_isNumeric {c : Char} (h : isNumeric c = true) : c.isAlpha = false := by
  unfold isNumeric at h
  rw [Bool.or_eq_true, beq_iff_eq] at h
  rcases h with hdigit | rfl
  · -- the digits come before all letters
    unfold Char.isDigit at hdigit
    unfold Char.isAlpha Char.isUpper Char.isLower
    simp only [ge_iff_le, Bool.and_eq_true, decide_eq_true_eq, UInt32.le_iff_toNat_le] at hdigit
    simp only [ge_iff_le, Bool.or_eq_false_iff, Bool.and_eq_false_iff, decide_eq_false_iff_not,
      UInt32.le_iff_toNat_le]
    have h9 : '9'.val.toNat = 57 := rfl
    have hA : 'A'.val.toNat = 65 := rfl
    have ha : 'a'.val.toNat = 97 := rfl
    omega
  · rfl

theorem not_alpha_of_mem_symbols : ∀ s ∈ symbols, s.1.all fun c => !c.isAlpha := by
  decide +kernel

theorem symbols_ne_nil {run : List Char} {x : Token} (h : (run, x) ∈ symbols) : run ≠ [] := by
  have hall : ∀ s ∈ symbols, s.1 ≠ [] := by decide
  exact hall (run, x) h

/-- The first token of a text stands at its beginning. -/
theorem spelling_of_first? {text : List Char} {x : Token} {count : Nat}
    (h : first? text = some (x, count)) :
    ∃ run rest, text = run ++ rest ∧ run.length = count ∧ run ≠ [] ∧ Spelling run x := by
  unfold first? at h
  dsimp only at h
  by_cases hdigits : text.takeWhile isNumeric = []
  · rw [hdigits] at h
    by_cases hletters : text.takeWhile Char.isAlpha = []
    · rw [hletters] at h
      obtain ⟨⟨run, y⟩, hmem, hfound⟩ := List.exists_of_findSome?_eq_some h
      dsimp only at hfound
      split at hfound
      · obtain ⟨rfl, rfl⟩ := Prod.mk.inj (Option.some.inj hfound)
        obtain ⟨rest, rfl⟩ := List.isPrefixOf_iff_prefix.mp ‹_›
        exact ⟨run, rest, rfl, rfl, symbols_ne_nil hmem, .symbol hmem⟩
      · cases hfound
    · rw [if_neg (by simp), if_pos (by simp [hletters])] at h
      obtain ⟨rfl, rfl⟩ := Prod.mk.inj (Option.some.inj h)
      refine ⟨_, text.dropWhile Char.isAlpha, List.takeWhile_append_dropWhile.symm, rfl, hletters,
        .letters fun c hc => ?_⟩
      exact List.mem_takeWhile_imp hc
  · rw [if_pos (by simp [hdigits])] at h
    obtain ⟨v, -, hv⟩ := Option.map_eq_some_iff.mp h
    obtain ⟨rfl, rfl⟩ := Prod.mk.inj hv
    refine ⟨_, text.dropWhile isNumeric, List.takeWhile_append_dropWhile.symm, rfl, hdigits,
      .digits v fun c hc => ?_⟩
    exact List.mem_takeWhile_imp hc

/-! ### Closing parentheses -/

/-- **A token that stands before the character ends there.** -/
structure Separates (d : Char) : Prop where
  not_numeric : isNumeric d = false
  not_alpha : d.isAlpha = false
  not_mem : ∀ s ∈ symbols, d ∉ s.1.tail

theorem separates_closing : Separates ')' := ⟨rfl, rfl, by decide⟩

variable {d : Char}

/-- A spelling without the character behind its first one reaches over none. -/
theorem isPrefixOf_append_separator {run : List Char} (hrun : d ∉ run.tail) (c : Char)
    (rest more : List Char) :
    run.isPrefixOf (c :: (rest ++ d :: more)) = run.isPrefixOf (c :: rest) := by
  have htail (s text : List Char) (hs : d ∉ s) :
      s.isPrefixOf (text ++ d :: more) = s.isPrefixOf text := by
    induction s generalizing text with
    | nil => simp
    | cons b s ih =>
      obtain ⟨hb, hs⟩ := not_or.mp (mt List.mem_cons.mpr hs)
      cases text with
      | nil =>
        have hne : (b == d) = false := beq_false_of_ne (Ne.symm hb)
        rw [List.nil_append, List.isPrefixOf_cons_cons, hne]
        rfl
      | cons b' text =>
        rw [List.cons_append, List.isPrefixOf_cons_cons, List.isPrefixOf_cons_cons, ih text hs]
  cases run with
  | nil => simp
  | cons b run =>
    rw [List.isPrefixOf_cons_cons, List.isPrefixOf_cons_cons, htail run rest hrun]

/-- What is taken of a text as long as it goes on ends before a character that is not taken. -/
theorem takeWhile_append_separator {p : Char → Bool} (hp : p d = false) (text more : List Char) :
    (text ++ d :: more).takeWhile p = text.takeWhile p := by
  induction text with
  | nil => simp [hp]
  | cons c text ih => rw [List.cons_append, List.takeWhile_cons, List.takeWhile_cons, ih]

/-- **The first token of a text does not depend on what stands behind a separator.** -/
theorem first?_append_separator (hd : Separates d) (c : Char) (rest more : List Char) :
    first? (c :: (rest ++ d :: more)) = first? (c :: rest) := by
  unfold first?
  rw [← List.cons_append, takeWhile_append_separator hd.not_numeric,
    takeWhile_append_separator hd.not_alpha, ← List.head?_filterMap, ← List.head?_filterMap,
    List.filterMap_congr fun s hs => ?_]
  obtain ⟨run, x⟩ := s
  dsimp only
  rw [List.cons_append, isPrefixOf_append_separator (hd.not_mem (run, x) hs)]

/-- **Texts are scanned apart at a closing parenthesis.** -/
theorem scans_append_closing {text more : List Char} {ts : List Token} :
    Scans (text ++ ')' :: more) ts ↔
      ∃ u v, ts = u ++ .rightParen :: v ∧ Scans text u ∧ Scans more v := by
  constructor
  · intro h
    obtain ⟨whole, hwhole⟩ : ∃ whole, whole = text ++ ')' :: more := ⟨_, rfl⟩
    rw [← hwhole] at h
    induction h generalizing text with
    | nil => simp at hwhole
    | @skip c rest ts hc hrest ih =>
      cases text with
      | nil =>
        obtain ⟨rfl, -⟩ := List.cons.inj hwhole
        cases hc
      | cons d text =>
        obtain ⟨rfl, hbehind⟩ := List.cons.inj hwhole
        obtain ⟨u, v, rfl, hu, hv⟩ := ih hbehind
        exact ⟨u, v, rfl, .skip hc hu, hv⟩
    | @token c rest x count ts hc hfirst hrest ih =>
      cases text with
      | nil =>
        obtain ⟨rfl, rfl⟩ := List.cons.inj hwhole
        obtain ⟨rfl, rfl⟩ := Prod.mk.inj (Option.some.inj (hfirst.symm.trans rfl))
        exact ⟨[], ts, rfl, .nil, hrest⟩
      | cons d text =>
        obtain ⟨rfl, rfl⟩ := List.cons.inj hwhole
        rw [List.append_eq, first?_append_separator separates_closing] at hfirst
        -- the token ends before the parenthesis
        obtain ⟨run, behind, htext, rfl, hne, -⟩ := spelling_of_first? hfirst
        have hcount : run.length - 1 ≤ text.length := by
          have hlength := congrArg List.length htext
          rw [List.length_cons, List.length_append] at hlength
          omega
        obtain ⟨u, v, rfl, hu, hv⟩ := ih (List.drop_append_of_le_length hcount)
        exact ⟨x :: u, v, rfl, .token hc hfirst hu, hv⟩
  · rintro ⟨u, v, rfl, hu, hv⟩
    induction hu with
    | nil => exact .token rfl rfl hv
    | skip hc _ ih => exact .skip hc ih
    | @token c rest x count ts hc hfirst _ ih =>
      obtain ⟨run, behind, htext, rfl, hne, -⟩ := spelling_of_first? hfirst
      have hcount : run.length - 1 ≤ rest.length := by
        have hlength := congrArg List.length htext
        rw [List.length_cons, List.length_append] at hlength
        omega
      have hwhole : first? (c :: (rest ++ ')' :: more)) = some (x, run.length) := by
        rw [first?_append_separator separates_closing, hfirst]
      rw [List.cons_append, List.cons_append]
      refine .token hc hwhole ?_
      rw [List.drop_append_of_le_length hcount]
      exact ih

/-- An opening parenthesis is the first token of a text that begins with it. -/
theorem scans_opening {text : List Char} {ts : List Token} :
    Scans ('(' :: text) ts ↔ ∃ u, ts = .leftParen :: u ∧ Scans text u := by
  constructor
  · intro h
    cases h with
    | skip hc _ => cases hc
    | token _ hfirst hrest =>
      obtain ⟨rfl, rfl⟩ := Prod.mk.inj (Option.some.inj (hfirst.symm.trans rfl))
      exact ⟨_, rfl, hrest⟩
  · rintro ⟨u, rfl, hu⟩
    exact .token rfl rfl hu

/-- And so is a minus. -/
theorem scans_minus {text : List Char} {ts : List Token} :
    Scans ('-' :: text) ts ↔ ∃ u, ts = .minus :: u ∧ Scans text u := by
  constructor
  · intro h
    cases h with
    | skip hc _ => cases hc
    | token _ hfirst hrest =>
      obtain ⟨rfl, rfl⟩ := Prod.mk.inj (Option.some.inj (hfirst.symm.trans rfl))
      exact ⟨_, rfl, hrest⟩
  · rintro ⟨u, rfl, hu⟩
    exact .token rfl rfl hu

end CurvePlot.Token
