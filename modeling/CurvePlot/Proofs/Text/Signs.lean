import CurvePlot.Decimal.Literal
import CurvePlot.Text.Lowercase
import Mathlib.Data.List.TakeWhile
/-!
# Signs of a text

Before a text is read it is changed to lower case and trimmed, and then it is cut at
certain signs. The change to lower case only makes letters, so a sign of the ASCII range,
such as a brace or an equality sign, stands in the changed text only if it stood in the
text (`mem_of_mem_lowercase`). Trimming takes away blanks only (`mem_trim`).
-/

namespace CurvePlot.Text

/-- An ASCII character that is no lower-case letter. -/
structure IsSign (c : Char) : Prop where
  pos : 0 < c.toNat
  ascii : c.toNat < 0x80
  not_lower : c.isLower = false

/-- No character beyond ASCII has its lower case there, except the sign of the unit
kelvin, whose lower case is a letter. -/
theorem lowerRuns_beyond : ∀ r ∈ lowerRuns, r.last < 0x80 ∨ 0x80 ≤ (r.first + r.shift : Int) ∨
    r.first = r.last ∧ (r.first + r.shift : Int) = 'k'.toNat := by
  decide +kernel

theorem toNat_ofNat (n : Nat) : (Char.ofNat n).toNat = n ∨ (Char.ofNat n).toNat = 0 := by
  by_cases hvalid : n.isValidChar
  · refine .inl ?_
    rw [Char.ofNat, dif_pos hvalid]
    rfl
  · refine .inr ?_
    rw [Char.ofNat, dif_neg hvalid]
    rfl

/-- The lower case of an ASCII character is the character or a lower-case letter. -/
theorem toLower_cases (d : Char) : d.toLower = d ∨ d.toLower.isLower = true := by
  by_cases hupper : d.val ≥ 'A'.val ∧ d.val ≤ 'Z'.val
  · refine .inr ?_
    have hval : d.toLower.val = d.val + ('a'.val - 'A'.val) := congrArg Char.val (dif_pos hupper)
    show (decide (d.toLower.val ≥ 'a'.val) && decide (d.toLower.val ≤ 'z'.val)) = true
    rw [hval]
    simp only [ge_iff_le, UInt32.le_iff_toNat_le] at hupper
    simp only [Bool.and_eq_true, decide_eq_true_eq, ge_iff_le,
      UInt32.le_iff_toNat_le, UInt32.toNat_add]
    simp at hupper ⊢
    omega
  · exact .inl (dif_neg hupper)

theorem eq_of_mem_lowerChar {c d : Char} (hc : IsSign c) (h : c ∈ lowerChar d) : c = d := by
  have hletter (hlower : c.isLower = true) : c = d :=
    absurd (hc.not_lower.symm.trans hlower) Bool.false_ne_true
  have hbeyond {n : Nat} (hn : 0x80 ≤ n) (hcn : c = Char.ofNat n) : c = d := by
    have hpos := hc.pos
    have hascii := hc.ascii
    rcases toNat_ofNat n with hval | hval <;> rw [hcn, hval] at hpos hascii <;> omega
  unfold lowerChar at h
  by_cases hascii : d.toNat < 0x80
  · rw [if_pos hascii, List.mem_singleton] at h
    rcases toLower_cases d with hsame | hlower
    · exact h.trans hsame
    · exact hletter (h ▸ hlower)
  rw [if_neg hascii] at h
  by_cases hdotted : d.toNat = 0x130
  · rw [if_pos hdotted, List.mem_cons, List.mem_singleton] at h
    rcases h with rfl | h
    · exact hletter rfl
    · exact hbeyond (by decide) h
  rw [if_neg hdotted] at h
  dsimp only at h
  split at h
  · rename_i r hr
    have hmem : r ∈ lowerRuns := List.mem_of_find?_eq_some hr
    have hrun := List.find?_some hr
    rw [List.mem_singleton] at h
    simp only [Bool.and_eq_true, decide_eq_true_eq] at hrun
    obtain ⟨⟨hfirst, hlast⟩, -⟩ := hrun
    rcases lowerRuns_beyond r hmem with hlow | hhigh | ⟨hone, hkelvin⟩
    · omega
    · exact hbeyond (by omega) h
    · have hk : ((d.toNat : Int) + r.shift).toNat = 'k'.toNat := by omega
      rw [hk] at h
      exact hletter (h ▸ rfl)
  · exact List.mem_singleton.mp h

/-- **A sign of a text in lower case is a sign of the text.** -/
theorem mem_of_mem_lowercase {c : Char} (hc : IsSign c) {text : List Char}
    (h : c ∈ lowercase text) : c ∈ text := by
  have hafter (before text : List Char) (h : c ∈ lowercaseAfter before text) : c ∈ text := by
    induction text generalizing before with
    | nil => exact h
    | cons d rest ih =>
      rw [lowercaseAfter, List.mem_append] at h
      rcases h with h | h
      · refine List.mem_cons.mpr (.inl ?_)
        by_cases hsigma : d.toNat = 0x3A3
        · -- either form of the small sigma lies beyond ASCII
          rw [if_pos hsigma, List.mem_singleton] at h
          have hascii := hc.ascii
          split at h <;> rw [h] at hascii <;> exact absurd hascii (by decide)
        · rw [if_neg hsigma] at h
          exact eq_of_mem_lowerChar hc h
      · exact List.mem_cons_of_mem d (ih _ h)
  exact hafter [] text h

/-! ### Trimming and cutting -/

theorem mem_dropWhile {p : Char → Bool} {c : Char} (hc : p c = false) {text : List Char} :
    c ∈ text.dropWhile p ↔ c ∈ text := by
  constructor
  · exact fun h => (List.dropWhile_suffix p).subset h
  · intro h
    rw [← List.takeWhile_append_dropWhile (p := p) (l := text), List.mem_append] at h
    rcases h with h | h
    · exact absurd (hc.symm.trans (List.mem_takeWhile_imp h)) Bool.false_ne_true
    · exact h

/-- **Trimming a text keeps everything but blanks.** -/
theorem mem_trim {c : Char} (hc : isBlank c = false) {text : List Char} :
    c ∈ trim text ↔ c ∈ text := by
  rw [trim, trimEnd, List.mem_reverse, mem_dropWhile hc, List.mem_reverse, trimStart,
    mem_dropWhile hc]

/-- A text that is cut at a character is its two parts with the character between. -/
theorem eq_of_splitAt? {c : Char} {text before after : List Char}
    (h : Decimal.splitAt? c text = some (before, after)) : text = before ++ c :: after := by
  unfold Decimal.splitAt? at h
  split at h
  · cases h
  · rename_i d rest hrest
    obtain ⟨rfl, rfl⟩ := Prod.mk.inj (Option.some.inj h)
    have hd : d = c := by
      have hhead := List.head?_dropWhile_not (· != c) text
      rw [hrest] at hhead
      simpa using hhead
    rw [← hd, ← hrest, hd, List.takeWhile_append_dropWhile]

theorem splitAt?_eq_none {c : Char} {text : List Char} (h : c ∉ text) :
    Decimal.splitAt? c text = none := by
  have hnil : text.dropWhile (· != c) = [] := by
    refine List.dropWhile_eq_nil_iff.mpr fun d hd => ?_
    exact bne_iff_ne.mpr fun heq => h (heq ▸ hd)
  rw [Decimal.splitAt?, hnil]

theorem splitAt?_append_left {c : Char} {pre : List Char} (h : c ∉ pre) (text : List Char) :
    Decimal.splitAt? c (pre ++ text) =
      (Decimal.splitAt? c text).map fun (before, after) => (pre ++ before, after) := by
  have hpre : ∀ d ∈ pre, (d != c) = true := fun d hd => bne_iff_ne.mpr fun heq => h (heq ▸ hd)
  unfold Decimal.splitAt?
  rw [List.dropWhile_append_of_pos hpre, List.takeWhile_append_of_pos hpre]
  cases text.dropWhile (· != c) <;> rfl

theorem splitAt?_append_cons {c : Char} {before : List Char} (h : c ∉ before)
    (after : List Char) : Decimal.splitAt? c (before ++ c :: after) = some (before, after) := by
  have hat : Decimal.splitAt? c (c :: after) = some ([], after) := by
    simp [Decimal.splitAt?]
  rw [splitAt?_append_left h, hat]
  simp only [Option.map_some, List.append_nil]

theorem splitAt?_append_right {c : Char} {post : List Char} (h : c ∉ post) (text : List Char) :
    Decimal.splitAt? c (text ++ post) =
      (Decimal.splitAt? c text).map fun (before, after) => (before, after ++ post) := by
  by_cases hc : c ∈ text
  · obtain ⟨before, after, rfl, hbefore⟩ := List.eq_append_cons_of_mem hc
    rw [List.append_assoc, List.cons_append, splitAt?_append_cons hbefore,
      splitAt?_append_cons hbefore]
    rfl
  · have hnone : c ∉ text ++ post := fun hmem => (List.mem_append.mp hmem).elim hc h
    rw [splitAt?_eq_none hc, splitAt?_eq_none hnone]
    rfl

end CurvePlot.Text
