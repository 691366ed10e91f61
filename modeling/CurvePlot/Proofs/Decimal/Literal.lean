import CurvePlot.Proofs.Text.Signs
/-!
# Which digits and points are a literal

A run of digits and points is a literal if it has a digit and no more than one point
(`bare?_eq_none_iff`). What is in front of the point and what is behind it are digits only, and
the number is read off both.
-/

namespace CurvePlot.Decimal

variable {run : List Char}

theorem splitPoint_of_not_mem (h : '.' ∉ run) : splitPoint run = (run, []) := by
  rw [splitPoint, Text.splitAt?_eq_none h]
  rfl

theorem splitPoint_append {whole : List Char} (h : '.' ∉ whole) (fraction : List Char) :
    splitPoint (whole ++ '.' :: fraction) = (whole, fraction) := by
  rw [splitPoint, Text.splitAt?_append_cons h]
  rfl

theorem not_mem_of_allDigits (h : allDigits run = true) : '.' ∉ run := fun hmem =>
  Bool.false_ne_true (List.all_eq_true.mp h '.' hmem)

/-- Digits are a literal. -/
theorem bare?_digits (h : allDigits run = true) (hne : run ≠ []) :
    bare? run = some (nearest run [] 0) := by
  rw [bare?, splitPoint_of_not_mem (not_mem_of_allDigits h)]
  have hempty : run.isEmpty = false := List.isEmpty_eq_false_iff.mpr hne
  have hnone : allDigits [] = true := rfl
  simp only [h, hnone, hempty, Bool.and_self, Bool.false_and, Bool.not_false, if_true]

/-- And so are digits with a point between them, in front of them or behind them. -/
theorem bare?_point {whole fraction : List Char} (hw : allDigits whole = true)
    (hf : allDigits fraction = true) (hne : whole ≠ [] ∨ fraction ≠ []) :
    bare? (whole ++ '.' :: fraction) = some (nearest whole fraction 0) := by
  rw [bare?, splitPoint_append (not_mem_of_allDigits hw)]
  simp only [hw, hf, Bool.and_self, Bool.true_and]
  rw [if_pos]
  rw [Bool.not_eq_true', Bool.and_eq_false_iff, List.isEmpty_eq_false_iff, List.isEmpty_eq_false_iff]
  exact hne

/-- A literal is made of digits and points, and there is at least one of them. -/
theorem digits_of_bare? {v : Float} (h : bare? run = some v) :
    run ≠ [] ∧ ∀ c ∈ run, c.isDigit = true ∨ c = '.' := by
  have hne : run ≠ [] := by
    rintro rfl
    cases h
  refine ⟨hne, ?_⟩
  by_cases hpoint : '.' ∈ run
  · obtain ⟨whole, fraction, rfl, hwhole⟩ := List.eq_append_cons_of_mem hpoint
    rw [bare?, splitPoint_append hwhole] at h
    dsimp only at h
    split at h
    · next hall =>
      simp only [Bool.and_eq_true] at hall
      intro c hc
      rcases List.mem_append.mp hc with hc | hc
      · exact .inl (List.all_eq_true.mp hall.1.1 c hc)
      · exact (List.mem_cons.mp hc).symm.imp_left (List.all_eq_true.mp hall.1.2 c)
    · cases h
  · rw [bare?, splitPoint_of_not_mem hpoint] at h
    dsimp only at h
    split at h
    · next hall =>
      simp only [Bool.and_eq_true] at hall
      exact fun c hc => .inl (List.all_eq_true.mp hall.1.1 c hc)
    · cases h

/-- **A run of digits and points is no literal** if it has no digit or more than one point. -/
theorem bare?_eq_none_iff (h : ∀ c ∈ run, c.isDigit = true ∨ c = '.') (hne : run ≠ []) :
    bare? run = none ↔ (∀ c ∈ run, c.isDigit = false) ∨ 2 ≤ run.count '.' := by
  by_cases hpoint : '.' ∈ run
  · obtain ⟨whole, fraction, rfl, hwhole⟩ := List.eq_append_cons_of_mem hpoint
    have hdigits : allDigits whole = true := List.all_eq_true.mpr fun c hc =>
      (h c (List.mem_append_left _ hc)).resolve_right fun heq => hwhole (heq ▸ hc)
    have hcount : (whole ++ '.' :: fraction).count '.' = fraction.count '.' + 1 := by
      rw [List.count_append, List.count_eq_zero.mpr hwhole, List.count_cons_self, Nat.zero_add]
    rw [hcount]
    by_cases hmore : '.' ∈ fraction
    · -- a second point is behind the first one
      have hbad : allDigits fraction = false :=
        Bool.eq_false_iff.mpr fun hall => not_mem_of_allDigits hall hmore
      have hpos : 0 < fraction.count '.' := List.count_pos_iff.mpr hmore
      refine iff_of_true ?_ (.inr (by omega))
      rw [bare?, splitPoint_append hwhole]
      simp [hbad]
    · have hdigits' : allDigits fraction = true := List.all_eq_true.mpr fun c hc =>
        (h c (by simp [hc])).resolve_right fun heq => hmore (heq ▸ hc)
      rw [List.count_eq_zero.mpr hmore]
      by_cases hparts : whole ≠ [] ∨ fraction ≠ []
      · rw [bare?_point hdigits hdigits' hparts]
        refine iff_of_false nofun fun hnone => ?_
        rcases hnone with hnone | htwo
        · -- a part that is not empty has a digit
          obtain ⟨c, hc, hdigit⟩ : ∃ c ∈ whole ++ '.' :: fraction, c.isDigit = true := by
            rcases hparts with hparts | hparts
            · obtain ⟨c, hc⟩ := List.exists_mem_of_ne_nil _ hparts
              exact ⟨c, List.mem_append_left _ hc, List.all_eq_true.mp hdigits c hc⟩
            · obtain ⟨c, hc⟩ := List.exists_mem_of_ne_nil _ hparts
              exact ⟨c, by simp [hc], List.all_eq_true.mp hdigits' c hc⟩
          exact Bool.false_ne_true ((hnone c hc).symm.trans hdigit)
        · omega
      · -- the point stands alone
        obtain ⟨rfl, rfl⟩ := not_or.mp hparts |>.imp not_not.mp not_not.mp
        exact iff_of_true rfl (.inl (List.forall_mem_singleton.mpr rfl))
  · have hdigits : allDigits run = true := List.all_eq_true.mpr fun c hc =>
      (h c hc).resolve_right fun heq => hpoint (heq ▸ hc)
    rw [bare?_digits hdigits hne, List.count_eq_zero.mpr hpoint]
    refine iff_of_false nofun fun hnone => ?_
    rcases hnone with hnone | htwo
    · obtain ⟨c, hc⟩ := List.exists_mem_of_ne_nil _ hne
      exact Bool.false_ne_true ((hnone c hc).symm.trans (List.all_eq_true.mp hdigits c hc))
    · omega

end CurvePlot.Decimal
