import CurvePlot.Proofs.Token.Scan
import CurvePlot.Parameter
/-!
# The parameter letters of a text, word by word

`Parameter.letters` runs over a text without knowing of tokens: it passes over a reserved
name wherever one stands. Reserved names are made of letters only, so none reaches over the
end of a word, and the letters found in a text are those found in its words one by one
(`letters_eq_of_scans`). A word that names a function is reserved as a whole, and no letter
is found in it (`letters_of_ofName?`).
-/

namespace CurvePlot

namespace Elementary

/-- Reserved names are words of lower-case letters. -/
theorem isLower_of_mem_reservedNames : ∀ name ∈ reservedNames, name.all Char.isLower := by
  decide +kernel

theorem reservedNames_ne_nil : ∀ name ∈ reservedNames, name ≠ [] := by
  decide +kernel

/-- A reserved name is found before any other that it begins with. -/
theorem find?_reservedNames : ∀ name ∈ reservedNames,
    reservedNames.find? (·.isPrefixOf name) = some name := by
  decide +kernel

theorem mem_reservedNames_of_mem_names : ∀ p ∈ names, p.1.toList ∈ reservedNames := by
  decide +kernel

end Elementary

namespace Parameter

open Elementary (reservedNames)

/-- A reserved name with which a text begins is passed over. -/
theorem letters_of_find? {c : Char} {rest name : List Char}
    (h : reservedNames.find? (·.isPrefixOf (c :: rest)) = some name) :
    letters (c :: rest) = letters (rest.drop (name.length - 1)) := by
  rw [letters, h]

/-- Where no reserved name stands, a text is looked at letter by letter. -/
theorem letters_of_find?_eq_none {c : Char} {rest : List Char}
    (h : reservedNames.find? (·.isPrefixOf (c :: rest)) = none) :
    letters (c :: rest) = if isName c then c :: letters rest else letters rest := by
  rw [letters, h]

/-- Nothing is found in a reserved name. -/
theorem letters_of_mem_reservedNames {name : List Char} (h : name ∈ reservedNames) :
    letters name = [] := by
  have hfind := Elementary.find?_reservedNames name h
  cases name with
  | nil => exact absurd rfl (Elementary.reservedNames_ne_nil [] h)
  | cons c rest =>
    rw [letters_of_find? hfind, List.length_cons, Nat.add_sub_cancel, List.drop_length, letters]

/-- Nothing is found in the name of a function. -/
theorem letters_of_ofName? {word : List Char} {f : Elementary}
    (h : Elementary.ofName? (String.ofList word) = some f) : letters word = [] := by
  obtain ⟨before, after, hnames, -⟩ := List.lookup_eq_some_iff.mp h
  have hmem : (String.ofList word, f) ∈ Elementary.names := by
    rw [hnames]
    exact List.mem_append_right before List.mem_cons_self
  have hreserved := Elementary.mem_reservedNames_of_mem_names _ hmem
  rw [String.toList_ofList] at hreserved
  exact letters_of_mem_reservedNames hreserved

/-! ### Words and what is between them -/

/-- Neither a parameter nor a reserved name begins with what is no lower-case letter. -/
theorem letters_cons_of_not_lower {c : Char} (hc : c.isLower = false) (rest : List Char) :
    letters (c :: rest) = letters rest := by
  have hnone : reservedNames.find? (·.isPrefixOf (c :: rest)) = none := by
    rw [List.find?_eq_none]
    intro name hname hbegins
    cases name with
    | nil => exact Elementary.reservedNames_ne_nil [] hname rfl
    | cons d name =>
      rw [List.isPrefixOf_cons_cons, Bool.and_eq_true, beq_iff_eq] at hbegins
      have hlower :=
        List.all_eq_true.mp (Elementary.isLower_of_mem_reservedNames _ hname) d List.mem_cons_self
      rw [hbegins.1, hc] at hlower
      cases hlower
  have hname : isName c = false := by
    unfold isName
    rw [hc]
    rfl
  rw [letters_of_find?_eq_none hnone, hname]
  rfl

theorem letters_append_of_not_lower {run : List Char} (hrun : run.all fun c => !c.isLower)
    (rest : List Char) : letters (run ++ rest) = letters rest := by
  induction run with
  | nil => rfl
  | cons c run ih =>
    rw [List.all_cons, Bool.and_eq_true, Bool.not_eq_true'] at hrun
    rw [List.cons_append, letters_cons_of_not_lower hrun.1]
    exact ih hrun.2

/-- A word of letters does not reach over what is no letter. -/
theorem isPrefixOf_append_of_alpha {name : List Char} (hname : ∀ c ∈ name, c.isAlpha = true)
    (word : List Char) {rest : List Char} (hrest : ∀ c, rest.head? = some c → c.isAlpha = false) :
    name.isPrefixOf (word ++ rest) = name.isPrefixOf word := by
  induction name generalizing word with
  | nil => simp
  | cons d name ih =>
    have hd : d.isAlpha = true := hname d List.mem_cons_self
    cases word with
    | cons c word =>
      rw [List.cons_append, List.isPrefixOf_cons_cons, List.isPrefixOf_cons_cons,
        ih (fun x hx => hname x (List.mem_cons_of_mem d hx))]
    | nil =>
      cases rest with
      | nil => rfl
      | cons c rest =>
        -- the name goes on with a letter, but the text does not
        have hc : c.isAlpha = false := hrest c rfl
        have hne : (d == c) = false := beq_false_of_ne fun heq => by
          rw [heq, hc] at hd
          cases hd
        rw [List.nil_append, List.isPrefixOf_cons_cons, hne]
        rfl

theorem isAlpha_of_isLower {c : Char} (h : c.isLower = true) : c.isAlpha = true := by
  show (c.isUpper || c.isLower) = true
  rw [h, Bool.or_true]

/-- **A word is looked through by itself.** -/
theorem letters_append {rest : List Char} (hrest : ∀ c, rest.head? = some c → c.isAlpha = false)
    (word : List Char) : letters (word ++ rest) = letters word ++ letters rest := by
  have hfind (word : List Char) : reservedNames.find? (·.isPrefixOf (word ++ rest)) =
      reservedNames.find? (·.isPrefixOf word) := by
    rw [← List.head?_filter, ← List.head?_filter]
    refine congrArg List.head? (List.filter_congr fun name hname => ?_)
    refine isPrefixOf_append_of_alpha (fun c hc => ?_) word hrest
    exact isAlpha_of_isLower
      (List.all_eq_true.mp (Elementary.isLower_of_mem_reservedNames name hname) c hc)
  -- the recursion of `letters` on the word, which takes a name or a letter at a time
  induction word using letters.induct with
  | case1 => rw [List.nil_append, letters, List.nil_append]
  | case2 c word name hname ih =>
    have hlength : name.length - 1 ≤ word.length := by
      have hbegins : name.isPrefixOf (c :: word) = true :=
        List.find?_some (p := fun x : List Char => x.isPrefixOf (c :: word)) hname
      have hle := (List.isPrefixOf_iff_prefix.mp hbegins).length_le
      rw [List.length_cons] at hle
      omega
    have hwhole := hfind (c :: word)
    rw [hname, List.cons_append] at hwhole
    rw [List.cons_append, letters_of_find? hwhole, letters_of_find? hname,
      List.drop_append_of_le_length hlength, ih]
  | case3 c word hnone hc ih =>
    have hwhole := hfind (c :: word)
    rw [hnone, List.cons_append] at hwhole
    rw [List.cons_append, letters_of_find?_eq_none hwhole, letters_of_find?_eq_none hnone,
      if_pos hc, if_pos hc, ih, List.cons_append]
  | case4 c word hnone hc ih =>
    have hwhole := hfind (c :: word)
    rw [hnone, List.cons_append] at hwhole
    rw [List.cons_append, letters_of_find?_eq_none hwhole, letters_of_find?_eq_none hnone,
      if_neg hc, if_neg hc, ih]

/-- What is found in a word stands in it and can name a parameter. -/
theorem of_mem_letters {c : Char} {word : List Char} (h : c ∈ letters word) :
    c ∈ word ∧ isName c = true := by
  induction word using letters.induct with
  | case1 =>
    rw [letters] at h
    cases h
  | case2 d word name hname ih =>
    rw [letters_of_find? hname] at h
    obtain ⟨hmem, hc⟩ := ih h
    exact ⟨List.mem_cons_of_mem d (List.mem_of_mem_drop hmem), hc⟩
  | case3 d word hnone hd ih =>
    rw [letters_of_find?_eq_none hnone, if_pos hd, List.mem_cons] at h
    rcases h with rfl | h
    · exact ⟨List.mem_cons_self, hd⟩
    · exact ⟨List.mem_cons_of_mem d (ih h).1, (ih h).2⟩
  | case4 d word hnone hd ih =>
    rw [letters_of_find?_eq_none hnone, if_neg hd] at h
    exact ⟨List.mem_cons_of_mem d (ih h).1, (ih h).2⟩

end Parameter

/-! ### Texts and their tokens -/

namespace Token

/-- The parameter letters of a token: only words have any. -/
def letters : Token → List Char
  | word w => Parameter.letters w
  | _ => []

theorem not_lower_of_not_alpha {c : Char} (h : c.isAlpha = false) : c.isLower = false :=
  Bool.eq_false_iff.mpr fun hlower =>
    Bool.false_ne_true (h.symm.trans (Parameter.isAlpha_of_isLower hlower))

theorem not_lower_of_mem_symbols : ∀ s ∈ symbols, s.1.all fun c => !c.isLower := by
  decide +kernel

theorem letters_of_mem_symbols : ∀ s ∈ symbols, s.2.letters = [] := by
  simp [symbols, letters]

/-- A word is as long as it can be. -/
theorem eq_takeWhile_of_first? {text w : List Char} {count : Nat}
    (h : first? text = some (.word w, count)) :
    w = text.takeWhile Char.isAlpha ∧ count = w.length := by
  unfold first? at h
  dsimp only at h
  split at h
  · obtain ⟨v, -, hv⟩ := Option.map_eq_some_iff.mp h
    cases hv
  · split at h
    · obtain ⟨hw, rfl⟩ := Prod.mk.inj (Option.some.inj h)
      obtain rfl := Token.word.inj hw
      exact ⟨rfl, rfl⟩
    · obtain ⟨⟨run, x⟩, hmem, hfound⟩ := List.exists_of_findSome?_eq_some h
      have hwords : ∀ s ∈ symbols, ∀ w, s.2 ≠ .word w := by simp [symbols]
      dsimp only at hfound
      split at hfound
      · exact absurd (Prod.mk.inj (Option.some.inj hfound)).1 (hwords _ hmem w)
      · cases hfound

end Token

namespace Parameter

/-- **The parameter letters of a text are those of its words.** -/
theorem letters_eq_of_scans {text : List Char} {ts : List Token} (h : Token.Scans text ts) :
    letters text = ts.flatMap Token.letters := by
  induction h with
  | nil => rw [letters, List.flatMap_nil]
  | skip hc _ ih => rw [letters_cons_of_not_lower (Token.not_lower_of_not_alpha (Token.not_alpha_of_isSkipped hc)), ih]
  | @token c rest x count ts hc hfirst hrest ih =>
    obtain ⟨run, behind, htext, rfl, hne, hspelling⟩ := Token.spelling_of_first? hfirst
    have hdrop : rest.drop (run.length - 1) = behind := by
      cases run with
      | nil => exact absurd rfl hne
      | cons d run =>
        obtain ⟨rfl, rfl⟩ := List.cons.inj htext
        exact List.drop_left
    rw [htext, List.flatMap_cons, ← ih, hdrop]
    cases hspelling with
    | digits v hdigits =>
      refine letters_append_of_not_lower (List.all_eq_true.mpr fun d hd => ?_) _
      rw [Token.not_lower_of_not_alpha (Token.not_alpha_of_isNumeric (hdigits d hd)), Bool.not_false]
    | symbol hmem =>
      rw [Token.letters_of_mem_symbols _ hmem, List.nil_append]
      exact letters_append_of_not_lower (Token.not_lower_of_mem_symbols _ hmem) _
    | letters halpha =>
      -- the word ends where the letters end
      obtain ⟨hrun, -⟩ := Token.eq_takeWhile_of_first? hfirst
      refine letters_append (fun d hd => ?_) run
      have hsplit := List.takeWhile_append_dropWhile (p := Char.isAlpha) (l := c :: rest)
      rw [← hrun, htext, List.append_cancel_left_eq] at hsplit
      have hnot := List.head?_dropWhile_not Char.isAlpha (run ++ behind)
      rw [hsplit, hd] at hnot
      exact hnot

end Parameter

end CurvePlot
