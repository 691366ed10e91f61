import CurvePlot.Proofs.Double.Packing
/-!
# Rounding never passes a double

Every operation on doubles computes a mantissa and an exponent exactly and rounds them
with `UnpackedFloat.roundWithAccuracy`. A number that is no greater than some double is
not rounded above that double: the bits that rounding drops are counted in the units in
which the double is a whole number, and a whole number is rounded to itself
(`rounded_le`). `round_cases` says so about the rounding as a whole, and that its result
is canonical.
-/

namespace CurvePlot.Double

open Float.Model (Format UnpackedFloat totalExponent)
open Float.Model.UnpackedFloat (Sign ExtendedMantissa)

/-! ### Dropping bits -/

/-- A mantissa from which nothing has been dropped yet. -/
def whole (m : Nat) : ExtendedMantissa := ⟨m, false, false⟩

theorem shift_succ (em : ExtendedMantissa) (s : Nat) : em >>> (s + 1) = (em >>> s).shiftRightOne :=
  rfl

/-- Dropping bits halves the mantissa each time, and nothing is noted if all the bits
were clear. -/
theorem whole_shift (m s : Nat) : (whole m >>> s).mantissa = m / 2 ^ s ∧
    (m % 2 ^ s = 0 → (whole m >>> s).roundBit = false ∧ (whole m >>> s).stickyBit = false) := by
  induction s with
  | zero => exact ⟨(Nat.div_one m).symm, fun _ => ⟨rfl, rfl⟩⟩
  | succ s ih =>
    rw [shift_succ, Nat.pow_succ, ← Nat.div_div_eq_div_mul]
    refine ⟨congrArg (· / 2) ih.1, fun hclear => ?_⟩
    have hlow : m % 2 ^ s = 0 := by
      rw [← Nat.mod_mod_of_dvd m (Dvd.intro 2 rfl : 2 ^ s ∣ 2 ^ s * 2), hclear, Nat.zero_mod]
    have hbit : m / 2 ^ s % 2 = 0 := by
      rw [← Nat.mod_mul_right_div_self, hclear, Nat.zero_div]
    obtain ⟨hround, hsticky⟩ := ih.2 hlow
    refine ⟨?_, ?_⟩
    · show ((whole m >>> s).mantissa % 2 != 0) = false
      rw [ih.1, hbit]
      rfl
    · show ((whole m >>> s).roundBit || (whole m >>> s).stickyBit) = false
      rw [hround, hsticky]
      rfl

/-- Rounding adds one at most. -/
theorem roundedMantissa_cases (em : ExtendedMantissa) :
    em.mantissa ≤ em.roundedMantissa ∧ em.roundedMantissa ≤ em.mantissa + 1 ∧
      (em.roundBit = false → em.stickyBit = false → em.roundedMantissa = em.mantissa) := by
  rcases em with ⟨m, _ | _, _ | _⟩ <;>
    simp [ExtendedMantissa.roundedMantissa, ExtendedMantissa.accuracy,
      UnpackedFloat.Accuracy.roundToNearestEven]
  omega

/-- What is not above a whole number is not rounded above it. -/
theorem rounded_le {m s k : Nat} (h : m ≤ k * 2 ^ s) : (whole m >>> s).roundedMantissa ≤ k := by
  obtain ⟨hmantissa, hclear⟩ := whole_shift m s
  obtain ⟨-, hup, hexact⟩ := roundedMantissa_cases (whole m >>> s)
  have hdiv : m / 2 ^ s ≤ k := (Nat.div_le_iff_le_mul_add_pred (Nat.two_pow_pos s)).mpr (by
    rw [Nat.mul_comm] at h
    omega)
  rcases Nat.lt_or_eq_of_le hdiv with hlt | heq
  · omega
  · -- all of `k` is there already, so no bit that was dropped was set
    have hmod : m % 2 ^ s = 0 := by
      have hsplit := Nat.div_add_mod m (2 ^ s)
      rw [heq, Nat.mul_comm] at hsplit
      omega
    obtain ⟨hround, hsticky⟩ := hclear hmod
    rw [hexact hround hsticky, hmantissa, heq]

theorem le_rounded (m s : Nat) : m / 2 ^ s ≤ (whole m >>> s).roundedMantissa := by
  rw [← (whole_shift m s).1]
  exact (roundedMantissa_cases _).1

/-! ### Rounding -/

/-- The exponent at which a number is kept. -/
def keptExponent (m : Nat) (e : Int) : Int := max (m.log2 + 1 + e - 53) (-1074)

theorem log2_mul_two_pow {m : Nat} (hm : m ≠ 0) (k : Nat) : (m * 2 ^ k).log2 = m.log2 + k := by
  induction k with
  | zero => rw [Nat.pow_zero, Nat.mul_one, Nat.add_zero]
  | succ k ih =>
    have hne : m * 2 ^ k ≠ 0 := Nat.mul_ne_zero hm (Nat.two_pow_pos k).ne'
    rw [Nat.pow_succ, ← Nat.mul_assoc, Nat.mul_comm _ 2, Nat.log2_two_mul hne, ih]
    rfl

/-- A smaller number is kept at no greater exponent. -/
theorem keptExponent_mono {m m' : Nat} {e e' b : Int} (hm : m ≠ 0) (hb : b ≤ e) (hb' : b ≤ e')
    (hle : m * 2 ^ (e - b).toNat ≤ m' * 2 ^ (e' - b).toNat) :
    keptExponent m e ≤ keptExponent m' e' := by
  have hne : m * 2 ^ (e - b).toNat ≠ 0 := Nat.mul_ne_zero hm (Nat.two_pow_pos _).ne'
  have hm' : m' ≠ 0 := by
    rintro rfl
    omega
  have hlog : (m * 2 ^ (e - b).toNat).log2 ≤ (m' * 2 ^ (e' - b).toNat).log2 := by
    have hself : 2 ^ (m * 2 ^ (e - b).toNat).log2 ≤ m * 2 ^ (e - b).toNat :=
      Nat.log2_self_le hne
    exact (Nat.le_log2 (by omega)).mpr (Nat.le_trans hself hle)
  rw [log2_mul_two_pow hm, log2_mul_two_pow hm'] at hlog
  unfold keptExponent
  omega

/-- A canonical number is kept at its exponent. -/
theorem Canonical.keptExponent_eq {m : Nat} {e : Int} (hc : Canonical m e) :
    keptExponent m e = e := by
  have hne : m ≠ 0 := hc.pos.ne'
  have hlog : m.log2 < 53 := (Nat.log2_lt hne).mpr hc.lt
  have hge := hc.ge
  unfold keptExponent
  rcases hc.full with hfull | rfl
  · have hlog' : 52 ≤ m.log2 := (Nat.le_log2 hne).mpr hfull
    omega
  · omega

/-- The number that rounding makes of `m · 2 ^ e`, counted in units of `2 ^ keptExponent`:
all its bits if there were as many as are kept, and no more than are kept. -/
theorem rounded_bounds {m : Nat} {e : Int} (hm : m ≠ 0) (he : e ≤ keptExponent m e) :
    (whole m >>> (keptExponent m e - e).toNat).roundedMantissa ≤ 2 ^ 53 ∧
      (2 ^ 52 ≤ (whole m >>> (keptExponent m e - e).toNat).roundedMantissa ∨
        keptExponent m e = -1074) := by
  have hlt : m < 2 ^ (m.log2 + 1) := Nat.lt_log2_self
  constructor
  · refine rounded_le ?_
    rw [← Nat.pow_add]
    refine Nat.le_of_lt (Nat.lt_of_lt_of_le hlt (Nat.pow_le_pow_right (by decide) ?_))
    unfold keptExponent at he ⊢
    omega
  · by_cases hleast : keptExponent m e = -1074
    · exact .inr hleast
    · refine .inl (Nat.le_trans ?_ (le_rounded _ _))
      rw [Nat.le_div_iff_mul_le (Nat.two_pow_pos _), ← Nat.pow_add]
      refine Nat.le_trans (Nat.pow_le_pow_right (by decide) ?_) (Nat.log2_self_le hm)
      unfold keptExponent at he hleast ⊢
      omega

/-- Rounding up may have carried into a 54th bit, which is dropped again: it is clear. -/
theorem drop_carry {q : Nat} {e : Int} (hq : q ≠ 0) (hle : q ≤ 2 ^ 53) (he : -1074 ≤ e) :
    let s := (keptExponent q e - e).toNat
    (q < 2 ^ 53 ∧ (whole q >>> s).mantissa = q ∧ e + s = e) ∨
      (q = 2 ^ 53 ∧ (whole q >>> s).mantissa = 2 ^ 52 ∧ e + s = e + 1) := by
  intro s
  rw [(whole_shift q s).1]
  rcases Nat.lt_or_eq_of_le hle with hlt | rfl
  · have hlog : q.log2 < 53 := (Nat.log2_lt hq).mpr hlt
    have hs : s = 0 := by
      show (keptExponent q e - e).toNat = 0
      unfold keptExponent
      omega
    rw [hs]
    exact .inl ⟨hlt, Nat.div_one q, Int.add_zero e⟩
  · have hs : s = 1 := by
      show (keptExponent (2 ^ 53) e - e).toNat = 1
      rw [keptExponent, Nat.log2_two_pow]
      omega
    rw [hs]
    exact .inr ⟨rfl, rfl, rfl⟩

/-- **Rounding never passes a double.** A number is rounded to zero or to a canonical
number, and that is no greater than any canonical number that the exact one is no
greater than. -/
theorem round_cases (s : Sign) {m : Nat} {e : Int} (hm : m ≠ 0) (he : e ≤ keptExponent m e) :
    UnpackedFloat.roundWithAccuracy Format.binary64 s m e .exact = .zero s ∨
    ∃ m' e' h, UnpackedFloat.roundWithAccuracy Format.binary64 s m e .exact = .finite s m' e' h ∧
      Canonical m' e' ∧ ∀ k f b, Canonical k f → b ≤ e → b ≤ -1074 →
        m * 2 ^ (e - b).toNat ≤ k * 2 ^ (f - b).toNat →
          m' * 2 ^ (e' - b).toNat ≤ k * 2 ^ (f - b).toNat := by
  let e1 : Int := e + (keptExponent m e - e).toNat
  let q : Nat := (whole m >>> (keptExponent m e - e).toNat).roundedMantissa
  let e2 : Int := e1 + (keptExponent q e1 - e1).toNat
  let q' : Nat := (whole q >>> (keptExponent q e1 - e1).toNat).mantissa
  have heq : UnpackedFloat.roundWithAccuracy Format.binary64 s m e .exact =
      if h : q' = 0 then .zero s else .finite s q' e2 (Nat.pos_of_ne_zero h) := rfl
  by_cases hq' : q' = 0
  · exact .inl (by rw [heq, dif_pos hq'])
  have he1 : e1 = keptExponent m e := by
    show e + (keptExponent m e - e).toNat = keptExponent m e
    omega
  have hge : -1074 ≤ e1 := he1 ▸ Int.le_max_right _ _
  obtain ⟨hle, hkept⟩ := rounded_bounds hm he
  have hfull : 2 ^ 52 ≤ q ∨ e1 = -1074 := hkept.imp_right he1.trans
  have hq : q ≠ 0 := by
    intro hq
    refine hq' ?_
    show (whole q >>> (keptExponent q e1 - e1).toNat).mantissa = 0
    rw [(whole_shift q _).1, hq, Nat.zero_div]
  have hdrop := drop_carry hq hle hge
  refine .inr ⟨q', e2, Nat.pos_of_ne_zero hq', by rw [heq, dif_neg hq'], ?_, ?_⟩
  · rcases hdrop with ⟨hlt, hmantissa, hexponent⟩ | ⟨-, hmantissa, hexponent⟩
    · rw [show q' = q from hmantissa, show e2 = e1 from hexponent]
      exact ⟨Nat.pos_of_ne_zero hq, hlt, hge, hfull⟩
    · rw [show q' = 2 ^ 52 from hmantissa, show e2 = e1 + 1 from hexponent]
      exact ⟨by decide, by decide, by omega, .inl (Nat.le_refl _)⟩
  · intro k f b hc hb hb' hbound
    have hf : e1 ≤ f := by
      rw [he1, ← hc.keptExponent_eq]
      exact keptExponent_mono hm hb (Int.le_trans hb' hc.ge) hbound
    have hbe1 : b ≤ e1 := by omega
    -- in units of the last bit that is kept, the double is a whole number
    have hqk : q ≤ k * 2 ^ (f - e1).toNat := by
      refine rounded_le (Nat.le_of_mul_le_mul_right ?_ (Nat.two_pow_pos (e - b).toNat))
      have hsum : (f - b).toNat =
          (f - e1).toNat + (keptExponent m e - e).toNat + (e - b).toNat := by omega
      rw [hsum, Nat.pow_add, Nat.pow_add, ← Nat.mul_assoc, ← Nat.mul_assoc] at hbound
      exact hbound
    have hval : q' * 2 ^ (e2 - b).toNat = q * 2 ^ (e1 - b).toNat := by
      rcases hdrop with ⟨-, hmantissa, hexponent⟩ | ⟨hcarry, hmantissa, hexponent⟩
      · rw [show q' = q from hmantissa, show e2 = e1 from hexponent]
      · have hsucc : (e1 + 1 - b).toNat = (e1 - b).toNat + 1 := by omega
        rw [show q' = 2 ^ 52 from hmantissa, show e2 = e1 + 1 from hexponent,
          show q = 2 ^ 53 from hcarry, hsucc, ← Nat.pow_add, ← Nat.pow_add]
        congr 1
        omega
    have hsum : (f - b).toNat = (f - e1).toNat + (e1 - b).toNat := by omega
    rw [hval, hsum, Nat.pow_add, ← Nat.mul_assoc]
    exact Nat.mul_le_mul_right _ hqk

end CurvePlot.Double
