import CurvePlot.Decimal.Notation
import CurvePlot.Proofs.Decimal.Literal
import CurvePlot.Proofs.Decimal.Shortest
import CurvePlot.Proofs.Double.Scientific
import CurvePlot.Proofs.Double.Undefined
/-!
# Shown numbers read back

The text that is shown for a finite number without a sign is a literal, and it is read as that
number (`bare?_plain`). Its digits stand for a number that is rounded to the one that is shown,
wherever the point is put among them, and a literal is rounded correctly (`rounds_nearest`). No
literal is read as a number with a minus sign (`isNegative_of_bare?`).
-/

namespace CurvePlot.Decimal

open Double (Rounds RankOf isNegative place rank beyond)

/-! ### Reading -/

/-- **A literal is rounded correctly.** -/
theorem rounds_nearest (whole fraction : List Char) :
    Rounds (ofDigits (whole ++ fraction) / 10 ^ fraction.length)
      (nearest whole fraction 0).toModel.unpack := by
  unfold nearest
  dsimp only
  rw [zero_sub]
  by_cases hnone : fraction.length = 0
  · rw [hnone, pow_zero, div_one]
    exact Double.rounds_ofNat _
  · rw [decide_eq_true (by omega), Int.natAbs_neg, Int.natAbs_natCast]
    exact Double.rounds_ofScientific _ (Nat.pos_of_ne_zero hnone)

theorem isNegative_of_bare? {run : List Char} {v : Float} (h : bare? run = some v) :
    isNegative v = false := by
  unfold bare? at h
  dsimp only at h
  split at h
  · obtain rfl := Option.some.inj h
    exact Double.isNegative_ofScientific _ _ _
  · cases h

/-! ### Placing the point -/

theorem ofDigits_append_zeros (digits : List Char) (k : ℕ) :
    ofDigits (digits ++ List.replicate k '0') = 10 ^ k * ofDigits digits := by
  show Nat.ofDigitChars 10 _ 0 = _
  rw [Nat.ofDigitChars_append, Nat.ofDigitChars_replicate_zero]
  rfl

theorem ofDigits_zeros_append (k : ℕ) (digits : List Char) :
    ofDigits (List.replicate k '0' ++ digits) = ofDigits digits := by
  show Nat.ofDigitChars 10 _ 0 = _
  rw [Nat.ofDigitChars_append, Nat.ofDigitChars_replicate_zero]
  rfl

theorem allDigits_append {a b : List Char} (ha : allDigits a = true) (hb : allDigits b = true) :
    allDigits (a ++ b) = true := by
  rw [allDigits, List.all_append, Bool.and_eq_true]
  exact ⟨ha, hb⟩

theorem allDigits_zeros (k : ℕ) : allDigits (List.replicate k '0') = true :=
  List.all_eq_true.mpr fun c hc => by rw [List.eq_of_mem_replicate hc]; rfl

/-! Each place of the point leaves the digits the number that they were. -/

theorem rounds_zeros_behind (digits : List Char) (k : ℕ) :
    Rounds (ofDigits digits * 10 ^ k)
      (nearest (digits ++ List.replicate k '0') [] 0).toModel.unpack := by
  have hround := rounds_nearest (digits ++ List.replicate k '0') []
  have hvalue : (ofDigits ((digits ++ List.replicate k '0') ++ []) : ℚ) /
      10 ^ ([] : List Char).length = ofDigits digits * 10 ^ k := by
    rw [List.append_nil, ofDigits_append_zeros, List.length_nil, pow_zero, div_one, mul_comm]
    push_cast
    rfl
  rwa [hvalue] at hround

theorem rounds_point_inside (digits : List Char) {k : ℕ} (hk : k ≤ digits.length) :
    Rounds (ofDigits digits / 10 ^ k) (nearest (digits.take (digits.length - k))
      (digits.drop (digits.length - k)) 0).toModel.unpack := by
  have hround := rounds_nearest (digits.take (digits.length - k)) (digits.drop (digits.length - k))
  have hplaces : digits.length - (digits.length - k) = k := by omega
  rwa [List.take_append_drop, List.length_drop, hplaces] at hround

theorem rounds_zeros_before (digits : List Char) {k : ℕ} (hk : digits.length ≤ k) :
    Rounds (ofDigits digits / 10 ^ k)
      (nearest ['0'] (List.replicate (k - digits.length) '0' ++ digits) 0).toModel.unpack := by
  have hround := rounds_nearest ['0'] (List.replicate (k - digits.length) '0' ++ digits)
  have hzeros : ofDigits (['0'] ++ (List.replicate (k - digits.length) '0' ++ digits)) =
      ofDigits digits :=
    (ofDigits_zeros_append 1 _).trans (ofDigits_zeros_append _ digits)
  rwa [hzeros, List.length_append, List.length_replicate, Nat.sub_add_cancel hk] at hround

/-- **Digits with their point in place are a literal,** which is the number that they stand for,
rounded once. -/
theorem exists_bare?_positional {n : Numeral} (hdigits : allDigits n.digits = true)
    (hne : n.digits ≠ []) :
    ∃ w, bare? n.positional = some w ∧ Rounds n.value w.toModel.unpack := by
  have hpart {part : List Char} (h : ∀ c ∈ part, c ∈ n.digits) : allDigits part = true :=
    List.all_eq_true.mpr fun c hc => List.all_eq_true.mp hdigits c (h c hc)
  unfold Numeral.positional
  dsimp only
  split
  · -- the point is behind all digits and is left out
    next h =>
    obtain ⟨k, hk⟩ := Int.eq_ofNat_of_zero_le h
    have hvalue : n.value = ofDigits n.digits * 10 ^ k := by rw [Numeral.value, hk, zpow_natCast]
    have hall : allDigits (n.digits ++ List.replicate k '0') = true :=
      allDigits_append hdigits (allDigits_zeros k)
    rw [hk, Int.toNat_natCast, hvalue]
    exact ⟨_, bare?_digits hall (by simp [hne]), rounds_zeros_behind n.digits k⟩
  · next h =>
    obtain ⟨k, hk⟩ := Int.eq_ofNat_of_zero_le (a := -n.exponent) (by omega)
    have hvalue : n.value = ofDigits n.digits / 10 ^ k := by
      rw [Numeral.value, show n.exponent = -(k : ℤ) by omega, zpow_neg, zpow_natCast, div_eq_mul_inv]
    rw [hk, Int.toNat_natCast, hvalue]
    split
    · -- it stands among the digits, with one of them in front at least
      next hcount =>
      have hwhole : n.digits.take (n.digits.length - k) ≠ [] := by
        intro hnil
        have hlength := congrArg List.length hnil
        rw [List.length_take, List.length_nil] at hlength
        omega
      exact ⟨_, bare?_point (hpart fun c hc => List.mem_of_mem_take hc)
        (hpart fun c hc => List.mem_of_mem_drop hc) (.inl hwhole),
        rounds_point_inside n.digits (by omega)⟩
    · -- it is in front of them, and zeros fill the places up to the first
      next hcount =>
      have hfraction : allDigits (List.replicate (k - n.digits.length) '0' ++ n.digits) = true :=
        allDigits_append (allDigits_zeros _) hdigits
      exact ⟨_, bare?_point rfl hfraction (.inl (List.cons_ne_nil '0' [])),
        rounds_zeros_before n.digits (by omega)⟩

/-! ### Shown numbers -/

/-- **A shown number reads back.** -/
theorem bare?_plain {v : Float} (hv : v.isFinite = true) (hsign : isNegative v = false) :
    bare? (plain v).toList = some v := by
  have hnumber := Double.isNumber_of_isFinite hv
  have hzero := Double.isNumber_of_isFinite Double.isFinite_zero
  unfold plain write
  rw [Double.isNaN_eq_false_of_isFinite hv, if_neg Bool.false_ne_true, hsign]
  dsimp only
  rw [if_neg Bool.false_ne_true, Double.isInf_eq_false_of_isFinite hv, if_neg Bool.false_ne_true]
  split
  · next hbeq =>
    rw [Double.eq_of_beq hv Double.isFinite_zero hsign (by decide +kernel) hbeq]
    decide +kernel
  · next hbeq =>
    -- zero is shown by a case of its own, so there is a first digit
    have hmantissa : (Double.decode v).mantissa ≠ 0 := by
      intro hnone
      obtain ⟨s, hs⟩ := Double.unpack_of_mantissa_eq_zero hnone
      refine hbeq ((Double.beq_iff_place hnumber hzero).mpr ?_)
      rw [hs]
      rfl
    obtain ⟨hc, he⟩ := Double.decode_canonical v hv hmantissa
    obtain ⟨hrank, hdigits, hne⟩ := rankOf_shortest hc he
    obtain ⟨w, hw, hround⟩ := exists_bare?_positional hdigits hne
    have htext : ("" ++ String.ofList (shortest (Double.decode v)).positional).toList =
        (shortest (Double.decode v)).positional := by simp
    have hnonneg : 0 ≤ (Span.ofDyadic (Double.decode v).mantissa
        (Double.decode v).exponent).shortest.value :=
      mul_nonneg (Nat.cast_nonneg _) (by positivity)
    -- what is read is rounded to the place of the number that is shown
    have heq : w = v :=
      Double.eq_of_rounds hv hsign (isNegative_of_bare? hw) hnonneg hrank hround
    rw [htext]
    exact hw.trans (congrArg some heq)

end CurvePlot.Decimal
