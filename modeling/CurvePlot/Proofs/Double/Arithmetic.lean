import CurvePlot.Proofs.Double.Decoding
import CurvePlot.Proofs.Double.Nearest
/-!
# Operations on doubles are correctly rounded

An operation computes a mantissa exactly, or to more bits than are kept and a note of how the
rest compares with half of the last one (`Shows`), and rounds that. Dropping a bit keeps the
note true (`Shows.shift`), and it is all that rounding to the nearest has to know
(`Shows.nearestEven`), so what comes out is the nearest double (`rounds_round`). From this
follows what `+`, `-`, `*` and `/` give for finite doubles: the exact result, rounded once.

The number that a finite double is, is `toRat`. Comparing doubles is comparing these
(`le_iff_toRat`), and what is rounded from a smaller number is no greater (`le_of_rounds`).
What is not finite does not become finite again, except that a finite number divided by an
infinity is zero.
-/

namespace CurvePlot.Double

open Float.Model (Format UnpackedFloat)
open Float.Model.UnpackedFloat (Sign ExtendedMantissa Accuracy)

/-! ### Dropping bits -/

/-- What an extended mantissa tells of a number: its whole part, and how what is behind the
point compares with one half. -/
inductive Shows (q : ℚ) : ExtendedMantissa → Prop
  /-- The number is whole. -/
  | exact {m : ℕ} (h : q = m) : Shows q ⟨m, false, false⟩
  /-- It is less than half behind its whole part, -/
  | below {m : ℕ} (h : (m : ℚ) < q) (h' : q < m + 1 / 2) : Shows q ⟨m, false, true⟩
  /-- half, -/
  | half {m : ℕ} (h : q = m + 1 / 2) : Shows q ⟨m, true, false⟩
  /-- or more than half. -/
  | above {m : ℕ} (h : (m : ℚ) + 1 / 2 < q) (h' : q < m + 1) : Shows q ⟨m, true, true⟩

/-- What is left of a division is noted by how it compares with half the divisor. -/
theorem shows_fraction (num : ℕ) {den : ℕ} (hden : 0 < den) :
    Shows (num / den : ℚ) (.ofMantissaAndAccuracy (num / den)
      (UnpackedFloat.accuracyOfFraction (num % den) den)) := by
  have hpos : (0 : ℚ) < den := by exact_mod_cast hden
  -- the quotient is its whole part and what is left of the division
  have hsplit : (num : ℚ) / den = (num / den : ℕ) + (num % den : ℕ) / den := by
    have hnum : (num : ℚ) = den * (num / den : ℕ) + (num % den : ℕ) := by
      exact_mod_cast (Nat.div_add_mod num den).symm
    field_simp
    exact hnum
  have hlt : ((num % den : ℕ) : ℚ) / den < 1 := by
    rw [div_lt_one hpos]
    exact_mod_cast Nat.mod_lt num hden
  rw [hsplit]
  generalize num / den = q
  generalize num % den = r at hlt
  unfold UnpackedFloat.accuracyOfFraction
  by_cases hr : r = 0
  · -- nothing is left
    rw [if_pos hr, hr]
    refine .exact ?_
    rw [Nat.cast_zero, zero_div, add_zero]
  have hr' : (0 : ℚ) < r / den := div_pos (by exact_mod_cast Nat.pos_of_ne_zero hr) hpos
  rw [if_neg hr]
  rcases Nat.lt_trichotomy (2 * r) den with h | h | h
  · -- what is left is compared with half of the divisor
    have hhalf : (r : ℚ) / den < 1 / 2 := by
      rw [div_lt_div_iff₀ hpos two_pos, mul_comm, one_mul]
      exact_mod_cast h
    rw [compare_lt_iff_lt.mpr h]
    exact .below (by linarith) (by linarith)
  · have hhalf : (r : ℚ) / den = 1 / 2 := by
      rw [div_eq_div_iff hpos.ne' two_ne_zero, mul_comm, one_mul]
      exact_mod_cast h
    rw [compare_eq_iff_eq.mpr h]
    exact .half (by linarith)
  · have hhalf : (1 : ℚ) / 2 < r / den := by
      rw [div_lt_div_iff₀ two_pos hpos, mul_comm (r : ℚ), one_mul]
      exact_mod_cast h
    rw [compare_gt_iff_gt.mpr h]
    exact .above (by linarith) (by linarith)

/-- A clear last bit is dropped, and the note is kept in one, -/
theorem shiftRightOne_even (m : ℕ) (r s : Bool) :
    ExtendedMantissa.shiftRightOne ⟨2 * m, r, s⟩ = ⟨m, false, r || s⟩ := by
  have hhalf : 2 * m / 2 = m := by omega
  have hbit : 2 * m % 2 = 0 := by omega
  rw [ExtendedMantissa.shiftRightOne, hhalf, hbit]
  rfl

/-- and a set one says that there was a half. -/
theorem shiftRightOne_odd (m : ℕ) (r s : Bool) :
    ExtendedMantissa.shiftRightOne ⟨2 * m + 1, r, s⟩ = ⟨m, true, r || s⟩ := by
  have hhalf : (2 * m + 1) / 2 = m := by omega
  have hbit : (2 * m + 1) % 2 = 1 := by omega
  rw [ExtendedMantissa.shiftRightOne, hhalf, hbit]
  rfl

/-- A bit less halves the number. -/
theorem Shows.shiftRightOne {q : ℚ} {em : ExtendedMantissa} (h : Shows q em) :
    Shows (q / 2) em.shiftRightOne := by
  obtain ⟨m, r, s⟩ := em
  rcases Nat.even_or_odd' m with ⟨n, rfl | rfl⟩
  · -- the half of what is noted is less than half, since the bit in front of it is clear
    rw [shiftRightOne_even]
    cases h with
    | exact h => exact .exact (by push_cast at h; linarith)
    | half h | below h h' | above h h' =>
      push_cast at *
      exact .below (by linarith) (by linarith)
  · -- with the bit that is dropped it is half at least
    rw [shiftRightOne_odd]
    cases h with
    | exact h => exact .half (by push_cast at h; linarith)
    | half h | below h h' | above h h' =>
      push_cast at *
      exact .above (by linarith) (by linarith)

/-- Dropping bits divides by a power of two. -/
theorem Shows.shift {q : ℚ} {em : ExtendedMantissa} (h : Shows q em) (s : ℕ) :
    Shows (q / 2 ^ s) (em >>> s) := by
  induction s with
  | zero =>
    rw [pow_zero, div_one]
    exact h
  | succ s ih =>
    rw [shift_succ, pow_succ, ← div_div]
    exact ih.shiftRightOne

/-- What is noted is all that rounding has to know. -/
theorem Shows.nearestEven {q : ℚ} {em : ExtendedMantissa} (h : Shows q em) :
    NearestEven q em.roundedMantissa := by
  cases h with
  | @exact m h =>
    -- there is nothing to round
    rw [h]
    exact NearestEven.natCast m
  | @below m h h' =>
    -- it is rounded down, and there is no tie
    show NearestEven q m
    refine ⟨by linarith, by linarith, fun htie => ?_⟩
    rcases htie with htie | htie <;> linarith
  | @half m h =>
    -- a tie goes to the even one
    show NearestEven q (m + m % 2)
    rcases Nat.mod_two_eq_zero_or_one m with heven | hodd
    · rw [heven, add_zero]
      exact ⟨by linarith, by linarith, fun _ => heven⟩
    · rw [hodd]
      refine ⟨?_, ?_, fun _ => by omega⟩ <;> push_cast <;> linarith
  | @above m h h' =>
    -- it is rounded up
    show NearestEven q (m + 1)
    refine ⟨by push_cast; linarith, by push_cast; linarith, fun htie => ?_⟩
    push_cast at htie
    rcases htie with htie | htie <;> linarith

/-! ### Rounding -/

/-- What is left of a number when it is put together as 64 bits and taken apart again. -/
def repack (u : UnpackedFloat) : UnpackedFloat :=
  UnpackedFloat.unpack Format.binary64 (UnpackedFloat.pack Format.binary64 u)

/-- Putting together what was rounded makes it infinite beyond the range, and changes nothing
else. -/
theorem place_repack (s : Sign) {m : ℕ} {e : ℤ} (h : 0 < m) (hc : Canonical m e) :
    repack (.finite s m e h) ≠ .notANumber ∧
      place (repack (.finite s m e h)) = unit s * (min (rank m e) beyond : ℕ) := by
  by_cases he : e ≤ 971
  · -- what is in range comes back as it is
    have hsame : repack (.finite s m e h) = .finite s m e h := unpack_pack hc he
    rw [hsame, min_eq_left (hc.rank_lt he).le]
    exact ⟨nofun, rfl⟩
  · -- what is beyond is infinite, and infinity is the first place beyond
    have hsame : repack (.finite s m e h) = .infinity s := by
      rw [repack, pack_finite, if_pos (by omega)]
      cases s <;> rfl
    rw [hsame, min_eq_right (hc.beyond_le (by omega))]
    exact ⟨nofun, rfl⟩

/-- Where the bits of a number say it is kept. -/
theorem kept_keptExponent {q : ℚ} {m : ℕ} {e : ℤ} (hle : (m : ℚ) ≤ q) (hlt : q < m + 1)
    (hm : m ≠ 0 ∨ e ≤ -1022) :
    Kept (q * 2 ^ e) (keptExponent m e) := by
  have hunit : (0 : ℚ) < 2 ^ e := by positivity
  refine ⟨Int.le_max_right _ _, ?_, ?_⟩
  · -- the number has no more bits in front of the point than its whole part
    have hlog : (m : ℚ) + 1 ≤ 2 ^ (m.log2 + 1) := by
      exact_mod_cast Nat.succ_le_of_lt Nat.lt_log2_self
    have hpow : (2 : ℚ) ^ (m.log2 + 1) * 2 ^ e = 2 ^ ((m.log2 + 1 : ℕ) + e : ℤ) := by
      rw [zpow_add₀ (by norm_num), zpow_natCast]
    calc q * 2 ^ e < 2 ^ (m.log2 + 1) * 2 ^ e := mul_lt_mul_of_pos_right (by linarith) hunit
      _ = 2 ^ ((m.log2 + 1 : ℕ) + e : ℤ) := hpow
      _ ≤ 2 ^ (keptExponent m e + 53) := by
        refine zpow_le_zpow_right₀ (by norm_num) ?_
        unfold keptExponent
        omega
  · by_cases hleast : keptExponent m e = -1074
    · exact .inl hleast
    · have hne : m ≠ 0 := by
        rcases hm with hm | hm
        · exact hm
        · rintro rfl
          refine absurd ?_ hleast
          have hlog : (0 : ℕ).log2 = 0 := rfl
          unfold keptExponent
          omega
      have hlog : (2 : ℚ) ^ m.log2 ≤ m := by exact_mod_cast Nat.log2_self_le hne
      refine .inr ?_
      calc (2 : ℚ) ^ (keptExponent m e + 52) = 2 ^ ((m.log2 : ℤ) + e) := by
            congr 1
            unfold keptExponent at hleast ⊢
            omega
        _ = 2 ^ m.log2 * 2 ^ e := by rw [zpow_add₀ (by norm_num), zpow_natCast]
        _ ≤ q * 2 ^ e := mul_le_mul_of_nonneg_right (by linarith) hunit.le

/-- The number is between its whole part and the next. -/
theorem Shows.bounds {q : ℚ} {em : ExtendedMantissa} (h : Shows q em) :
    (em.mantissa : ℚ) ≤ q ∧ q < em.mantissa + 1 := by
  cases h with
  | exact h | half h => exact ⟨by dsimp only; linarith, by dsimp only; linarith⟩
  | below h h' | above h h' => exact ⟨by dsimp only; linarith, by dsimp only; linarith⟩

/-- The mantissa is taken as it is, whatever was dropped. -/
theorem mantissa_ofMantissaAndAccuracy (m : ℕ) (acc : Accuracy) :
    (ExtendedMantissa.ofMantissaAndAccuracy m acc).mantissa = m := by
  cases acc with
  | exact => rfl
  | inexact o => cases o <;> rfl

/-- **Rounding is correct,** also of what is only known by how much of it was dropped. -/
theorem rounds_round (s : Sign) {q : ℚ} {m : ℕ} {e : ℤ} {acc : Accuracy}
    (hq : Shows q (.ofMantissaAndAccuracy m acc)) (he : e ≤ keptExponent m e)
    (hm : m ≠ 0 ∨ e ≤ -1022) :
    Rounds (unit s * (q * 2 ^ e))
      (repack (UnpackedFloat.roundWithAccuracy Format.binary64 s m e acc)) := by
  -- the mantissa is shifted to where the number is kept, rounded there, and shifted once more if it
  -- has become too long
  let shift : ℕ := (keptExponent m e - e).toNat
  let e1 : ℤ := e + shift
  let k : ℕ := (ExtendedMantissa.ofMantissaAndAccuracy m acc >>> shift).roundedMantissa
  let e2 : ℤ := e1 + (keptExponent k e1 - e1).toNat
  let k' : ℕ := (whole k >>> (keptExponent k e1 - e1).toNat).mantissa
  have heq : UnpackedFloat.roundWithAccuracy Format.binary64 s m e acc =
      if h : k' = 0 then .zero s else .finite s k' e2 (Nat.pos_of_ne_zero h) := rfl
  have he1 : e1 = keptExponent m e := by
    show e + (keptExponent m e - e).toNat = keptExponent m e
    omega
  obtain ⟨hlower, hupper⟩ := hq.bounds
  rw [mantissa_ofMantissaAndAccuracy] at hlower hupper
  have hkept : Kept (q * 2 ^ e) e1 := he1 ▸ kept_keptExponent hlower hupper hm
  have hnearest : NearestEven (q * 2 ^ e / 2 ^ e1) k := by
    have hdiv : q * 2 ^ e / 2 ^ e1 = q / 2 ^ shift := by
      rw [zpow_add₀ (by norm_num), zpow_natCast, div_mul_eq_div_div,
        mul_div_cancel_right₀ _ (by positivity)]
    rw [hdiv]
    exact (hq.shift shift).nearestEven
  have hnonneg : 0 ≤ q * 2 ^ e := mul_nonneg (by linarith [Nat.cast_nonneg (α := ℚ) m]) (by positivity)
  have hrank : RankOf (q * 2 ^ e) (rank k e1) := ⟨e1, k, hkept, hnearest, rfl⟩
  obtain ⟨hle, hfull⟩ := hnearest.bounds hkept
  rw [heq]
  by_cases hk : k = 0
  · -- nothing is left, so the number was kept in the least units
    have hk' : k' = 0 := by
      show (whole k >>> (keptExponent k e1 - e1).toNat).mantissa = 0
      rw [(whole_shift k _).1, hk, Nat.zero_div]
    have hleast : e1 = -1074 := hfull.resolve_left (by omega)
    have hzero : rank k e1 = 0 := by
      rw [hk, hleast]
      rfl
    rw [dif_pos hk', repack, unpack_pack_zero]
    refine ⟨nofun, s, _, _, hnonneg, rfl, hrank, ?_⟩
    rw [hzero, Nat.zero_min, Nat.cast_zero, mul_zero]
    rfl
  · -- rounding up may have carried, and then one more bit is dropped, which is clear
    obtain ⟨hk', hc, hsame⟩ : k' ≠ 0 ∧ Canonical k' e2 ∧ rank k' e2 = rank k e1 := by
      have hge := hkept.ge
      rcases drop_carry hk hle hge with ⟨hlt, hmantissa, hexponent⟩ | ⟨hcarry, hmantissa, hexponent⟩
      · -- no carry, so nothing is dropped
        rw [show k' = k from hmantissa, show e2 = e1 from hexponent]
        exact ⟨hk, ⟨Nat.pos_of_ne_zero hk, hlt, hge, hfull⟩, rfl⟩
      · -- the carry makes a power of two of it
        rw [show k' = 2 ^ 52 from hmantissa, show e2 = e1 + 1 from hexponent, hcarry]
        refine ⟨by decide, ⟨by decide, by decide, by omega, .inl (Nat.le_refl _)⟩, ?_⟩
        unfold rank
        omega
    obtain ⟨hnumber, hplace⟩ := place_repack s (Nat.pos_of_ne_zero hk') hc
    rw [dif_neg hk']
    exact ⟨hnumber, s, _, _, hnonneg, rfl, hrank, hsame ▸ hplace⟩

/-- Zero is rounded to zero. -/
theorem rounds_zero (s : Sign) : Rounds 0 (repack (.zero s)) := by
  rw [repack, unpack_pack_zero]
  exact .self (u := .zero s) trivial rfl

/-- What is a double already is rounded to itself. -/
theorem Packed.rounds {u : UnpackedFloat} (hu : Packed u) (hfin : u.isFinite = true) :
    Rounds (value u) (repack u) := by
  have hne : u ≠ .notANumber := by
    rintro rfl
    cases hfin
  rw [repack, hu.unpack_pack hne]
  exact .self hu hfin

/-- A whole multiple of a power of two is rounded correctly, -/
theorem rounds_exact (s : Sign) {m : ℕ} (hm : m ≠ 0) (e : ℤ) :
    Rounds (unit s * (m * 2 ^ e)) (repack (UnpackedFloat.round Format.binary64 s m e)) := by
  let shift : ℕ := (e - keptExponent m e).toNat
  have heq : UnpackedFloat.round Format.binary64 s m e =
      UnpackedFloat.roundWithAccuracy Format.binary64 s (m <<< shift) (e - shift) .exact := rfl
  have hvalue : (m : ℚ) * 2 ^ e = ((m * 2 ^ shift : ℕ) : ℚ) * 2 ^ (e - shift) := by
    push_cast
    rw [mul_assoc, ← zpow_natCast, ← zpow_add₀ (by norm_num), add_sub_cancel]
  rw [heq, hvalue, Nat.shiftLeft_eq]
  -- the shift only counts the same number in units that are small enough
  refine rounds_round s (.exact rfl) ?_ (.inl (Nat.mul_ne_zero hm (Nat.two_pow_pos shift).ne'))
  rw [keptExponent_shift hm]
  show e - ((e - keptExponent m e).toNat : ℤ) ≤ _
  omega

/-- and so it is where it has a sign, or is zero. -/
theorem rounds_normalize (n e : ℤ) (zero : Sign) :
    Rounds (n * 2 ^ e) (repack (UnpackedFloat.normalize Format.binary64 n e zero)) := by
  rcases Int.lt_trichotomy n 0 with h | rfl | h
  · -- the sign is taken out in front
    have hvalue : (n : ℚ) * 2 ^ e = unit .negative * ((-n).toNat * 2 ^ e) := by
      have hn : ((-n).toNat : ℤ) = -n := Int.toNat_of_nonneg (by omega)
      have hn' : ((-n).toNat : ℚ) = -n := by exact_mod_cast hn
      rw [hn', show unit .negative = -1 from rfl]
      push_cast
      ring
    have heq : UnpackedFloat.normalize Format.binary64 n e zero =
        UnpackedFloat.round Format.binary64 .negative (-n).toNat e := by
      rw [UnpackedFloat.normalize, compare_lt_iff_lt.mpr h]
    rw [heq, hvalue]
    exact rounds_exact _ (by omega) e
  · -- nothing is rounded
    rw [Int.cast_zero, zero_mul]
    exact rounds_zero zero
  · have hvalue : (n : ℚ) * 2 ^ e = unit .positive * (n.toNat * 2 ^ e) := by
      have hn : (n.toNat : ℤ) = n := Int.toNat_of_nonneg (by omega)
      have hn' : (n.toNat : ℚ) = n := by exact_mod_cast hn
      rw [hn', show unit .positive = 1 from rfl, Int.cast_one, one_mul]
    have heq : UnpackedFloat.normalize Format.binary64 n e zero =
        UnpackedFloat.round Format.binary64 .positive n.toNat e := by
      rw [UnpackedFloat.normalize, compare_gt_iff_gt.mpr h]
    rw [heq, hvalue]
    exact rounds_exact _ (by omega) e

/-! ### Operations -/

section Unpacked

variable {u v : UnpackedFloat} (hu : Packed u) (hv : Packed v) (hfin : u.isFinite = true)
  (hfin' : v.isFinite = true)

/-- A product has as many bits as either factor, and so no place is missing. -/
theorem le_keptExponent_mul {m m' : ℕ} {e e' : ℤ} (hc : Canonical m e) (hc' : Canonical m' e') :
    e + e' ≤ keptExponent (m * m') (e + e') := by
  have hne : m * m' ≠ 0 := Nat.mul_ne_zero hc.pos.ne' hc'.pos.ne'
  have hge := hc.ge
  have hge' := hc'.ge
  have hlong (h : 2 ^ 52 ≤ m * m') : 52 ≤ (m * m').log2 := (Nat.le_log2 hne).mpr h
  unfold keptExponent
  -- one factor is long, or both are counted in the least units
  rcases hc.full with hfull | rfl
  · have hlog := hlong (Nat.le_trans hfull (Nat.le_mul_of_pos_right m hc'.pos))
    omega
  · rcases hc'.full with hfull | rfl
    · have hlog := hlong (Nat.le_trans hfull (Nat.le_mul_of_pos_left m' hc.pos))
      omega
    · omega

/-- A number is counted in smaller units. -/
theorem mul_two_pow_of_le (m : ℕ) {e f : ℤ} (h : f ≤ e) :
    (m : ℚ) * 2 ^ e = m * 2 ^ (e - f).toNat * 2 ^ f := by
  rw [mul_assoc, ← zpow_natCast, ← zpow_add₀ (by norm_num)]
  congr 2
  omega

/-- A quotient is computed to as many bits as are kept. -/
theorem le_quotient {m m' s : ℕ} (hm : m ≠ 0) (hm' : 0 < m') (h : m'.log2 + 53 ≤ m.log2 + s) :
    2 ^ 52 ≤ (m <<< s) / m' := by
  rw [Nat.le_div_iff_mul_le hm', Nat.shiftLeft_eq]
  calc 2 ^ 52 * m' ≤ 2 ^ 52 * 2 ^ (m'.log2 + 1) := Nat.mul_le_mul_left _ Nat.lt_log2_self.le
    _ = 2 ^ (m'.log2 + 53) := by rw [← Nat.pow_add, Nat.add_left_comm]
    _ ≤ 2 ^ (m.log2 + s) := Nat.pow_le_pow_right (by decide) h
    _ = 2 ^ m.log2 * 2 ^ s := Nat.pow_add _ _ _
    _ ≤ m * 2 ^ s := Nat.mul_le_mul_right _ (Nat.log2_self_le hm)

/-- A quotient of finite numbers is rounded correctly, however many bits they have. -/
theorem rounds_div_finite (s s' : Sign) {m m' : ℕ} (h : 0 < m) (h' : 0 < m') (e e' : ℤ) :
    Rounds (value (.finite s m e h) / value (.finite s' m' e' h'))
      (repack (UnpackedFloat.div Format.binary64 (.finite s m e h) (.finite s' m' e' h'))) := by
  let target : ℤ := min (e - e') (max (m.log2 + 1 + e - (m'.log2 + 1 + e') - 53) (-1074))
  let shift : ℕ := (e - e' - target).toNat
  have heq : UnpackedFloat.div Format.binary64 (.finite s m e h) (.finite s' m' e' h') =
      UnpackedFloat.roundWithAccuracy Format.binary64 (s / s') ((m <<< shift) / m') target
        (UnpackedFloat.accuracyOfFraction ((m <<< shift) % m') m') := rfl
  have hvalue : value (.finite s m e h) / value (.finite s' m' e' h') =
      unit (s / s') * (((m <<< shift : ℕ) : ℚ) / m' * 2 ^ target) := by
    -- units are signs, and a sign divides by multiplying
    have hunit : (unit s' : ℚ) * unit s' = 1 := by cases s' <;> exact by norm_num [unit]
    have hpow : (2 : ℚ) ^ e = 2 ^ shift * 2 ^ target * 2 ^ e' := by
      rw [← zpow_natCast, ← zpow_add₀ (by norm_num), ← zpow_add₀ (by norm_num)]
      congr 1
      omega
    have hm' : (m' : ℚ) ≠ 0 := by exact_mod_cast h'.ne'
    have hne : (unit s' * (m' * 2 ^ e') : ℚ) ≠ 0 :=
      mul_ne_zero (left_ne_zero_of_mul_eq_one hunit) (mul_ne_zero hm' (by positivity))
    show (unit s * (m * 2 ^ e) : ℚ) / (unit s' * (m' * 2 ^ e')) = _
    rw [div_eq_iff hne, unit_div, Nat.shiftLeft_eq, Int.cast_mul, Nat.cast_mul, Nat.cast_pow,
      Nat.cast_two, hpow]
    field_simp
    rw [pow_two, hunit, mul_one]
  -- there are enough bits of the quotient, unless it is kept in the least units
  have hlong : target ≤ -1074 ∨ 2 ^ 52 ≤ (m <<< shift) / m' := by
    by_cases hleast : target ≤ -1074
    · exact .inl hleast
    · exact .inr (le_quotient h.ne' h' (by omega))
  rw [heq, hvalue]
  refine rounds_round _ (shows_fraction _ h') ?_ ?_
  · -- the place where the quotient is kept is not below the target
    unfold keptExponent
    rcases hlong with hleast | hlong
    · omega
    · have hlog := (Nat.le_log2 (by omega)).mpr hlong
      omega
  · -- the quotient is not lost, since it is long or the units are the least
    rcases hlong with hleast | hlong
    · exact .inr (by omega)
    · exact .inl (by omega)

include hu hv hfin hfin'

/-- **A product of finite doubles is the exact product, rounded once.** -/
theorem rounds_mul : Rounds (value u * value v) (repack (UnpackedFloat.mul Format.binary64 u v)) := by
  cases u with
  | notANumber | infinity => cases hfin
  | zero s =>
    -- with a zero in it, the product is zero
    rw [show value (.zero s) = 0 from rfl, zero_mul]
    cases v with
    | notANumber | infinity => cases hfin'
    | zero | finite => exact rounds_zero _
  | finite s m e h =>
    cases v with
    | notANumber | infinity => cases hfin'
    | zero s' =>
      rw [show value (.zero s') = 0 from rfl, mul_zero]
      exact rounds_zero _
    | finite s' m' e' h' =>
      -- the mantissas are multiplied and the exponents are added
      have hvalue : value (.finite s m e h) * value (.finite s' m' e' h') =
          unit (s * s') * ((m * m' : ℕ) * 2 ^ (e + e')) := by
        rw [unit_mul, zpow_add₀ (by norm_num)]
        show unit s * (m * 2 ^ e : ℚ) * (unit s' * (m' * 2 ^ e')) = _
        push_cast
        ring
      rw [hvalue, mul_finite]
      exact rounds_round _ (.exact rfl) (le_keptExponent_mul hu.1 hv.1)
        (.inl (Nat.mul_ne_zero h.ne' h'.ne'))

/-- **So is a quotient,** unless it is one by zero. -/
theorem rounds_div (hne : value v ≠ 0) :
    Rounds (value u / value v) (repack (UnpackedFloat.div Format.binary64 u v)) := by
  cases v with
  | notANumber | infinity => cases hfin'
  | zero => exact absurd rfl hne
  | finite s' m' e' h' =>
    cases u with
    | notANumber | infinity => cases hfin
    | zero s =>
      rw [show value (.zero s) = 0 from rfl, zero_div]
      exact rounds_zero _
    | finite s m e h => exact rounds_div_finite s s' h h' e e'

/-- **So is a sum.** -/
theorem rounds_add : Rounds (value u + value v) (repack (UnpackedFloat.add Format.binary64 u v)) := by
  cases u with
  | notANumber | infinity => cases hfin
  | zero s =>
    rw [show value (.zero s) = 0 from rfl, zero_add]
    cases v with
    | notANumber | infinity => cases hfin'
    | zero s' => cases s <;> cases s' <;> exact rounds_zero _
    | finite => exact hv.rounds rfl
  | finite s m e h =>
    cases v with
    | notANumber | infinity => cases hfin'
    | zero s' =>
      rw [show value (.zero s') = 0 from rfl, add_zero]
      exact hu.rounds rfl
    | finite s' m' e' h' =>
      -- both are counted in the smaller unit, and their mantissas are added
      have heq : UnpackedFloat.add Format.binary64 (.finite s m e h) (.finite s' m' e' h') =
          UnpackedFloat.normalize Format.binary64
            (s.apply (m <<< (e - min e e').toNat : ℕ) + s'.apply (m' <<< (e' - min e e').toNat : ℕ))
            (min e e') .positive := rfl
      have hvalue : value (.finite s m e h) + value (.finite s' m' e' h') =
          (s.apply (m <<< (e - min e e').toNat : ℕ) + s'.apply (m' <<< (e' - min e e').toNat : ℕ) : ℤ)
            * 2 ^ min e e' := by
        show unit s * (m * 2 ^ e : ℚ) + unit s' * (m' * 2 ^ e') = _
        rw [apply_eq_unit_mul, apply_eq_unit_mul, Nat.shiftLeft_eq, Nat.shiftLeft_eq]
        push_cast
        rw [mul_two_pow_of_le m (min_le_left e e'), mul_two_pow_of_le m' (min_le_right e e')]
        ring
      rw [heq, hvalue]
      exact rounds_normalize _ _ _

end Unpacked

/-- Taking away is adding what has the other sign. -/
theorem sub_eq_add_negated (u v : UnpackedFloat) :
    UnpackedFloat.sub Format.binary64 u v = UnpackedFloat.add Format.binary64 u v.neg := by
  cases u with
  | notANumber | infinity | zero => cases v <;> rfl
  | finite s m e h =>
    cases v with
    | notANumber | infinity | zero => rfl
    | finite s' m' e' h' =>
      show UnpackedFloat.normalize _ (_ - s'.apply _) _ _ =
        UnpackedFloat.normalize _ (_ + (-s').apply _) _ _
      rw [apply_eq_unit_mul s', apply_eq_unit_mul (-s'), unit_neg, neg_mul, Int.sub_eq_add_neg]

/-- The other sign is that of the negated number. -/
theorem value_neg {v : UnpackedFloat} (hv : Packed v) (hfin : v.isFinite = true) :
    value v.neg = -value v ∧ Packed v.neg ∧ v.neg.isFinite = true := by
  cases v with
  | notANumber | infinity => cases hfin
  | zero s => exact ⟨neg_zero.symm, trivial, rfl⟩
  | finite s m e h =>
    refine ⟨?_, hv, rfl⟩
    show unit (-s) * (m * 2 ^ e : ℚ) = -(unit s * (m * 2 ^ e))
    rw [unit_neg, Int.cast_neg, neg_mul]

/-! ### Doubles -/

/-- The number that a finite double is. -/
def toRat (v : Float) : ℚ := value v.toModel.unpack

/-- Zero is finite -/
theorem isFinite_zero : (0.0 : Float).isFinite = true := rfl

/-- and is the number zero. -/
theorem toRat_zero : toRat 0.0 = 0 := rfl

/-- One is finite -/
theorem isFinite_one : (1.0 : Float).isFinite = true := rfl

/-- Powers of two are told by their exponent alone. -/
theorem toRat_of_unpack {v : Float} {e : ℤ}
    (h : v.toModel.unpack = .finite .positive (2 ^ 52) e (by decide)) :
    toRat v = 2 ^ (52 + e) := by
  rw [toRat, h, value_two_pow]
  rfl

/-- and is the number one. -/
theorem toRat_one : toRat 1.0 = 1 := by
  rw [toRat_of_unpack (e := -52) rfl]
  rfl

section Doubles

variable {v w : Float}

/-- A finite double is rounded to itself. -/
theorem rounds_self (hv : v.isFinite = true) : Rounds (toRat v) v.toModel.unpack :=
  .self (packed v) hv

/-- **Finite doubles are ordered as the numbers that they are.** -/
theorem le_iff_toRat (hv : v.isFinite = true) (hw : w.isFinite = true) :
    v ≤ w ↔ toRat v ≤ toRat w := by
  rw [le_iff_place (isNumber_of_isFinite hv) (isNumber_of_isFinite hw)]
  exact (value_le_iff (packed v) (packed w) hv hw).symm

/-- Less is less of the numbers, -/
theorem lt_iff_toRat (hv : v.isFinite = true) (hw : w.isFinite = true) :
    v < w ↔ toRat v < toRat w := by
  rw [lt_iff_place (isNumber_of_isFinite hv) (isNumber_of_isFinite hw), ← not_le, ← not_le]
  exact not_congr (value_le_iff (packed w) (packed v) hw hv).symm

/-- and equal is equal of the numbers. -/
theorem beq_iff_toRat (hv : v.isFinite = true) (hw : w.isFinite = true) :
    (v == w) = true ↔ toRat v = toRat w := by
  rw [beq_iff_place (isNumber_of_isFinite hv) (isNumber_of_isFinite hw), le_antisymm_iff,
    le_antisymm_iff]
  exact and_congr (value_le_iff (packed v) (packed w) hv hw).symm
    (value_le_iff (packed w) (packed v) hw hv).symm

/-- **What is rounded from a smaller number is no greater.** -/
theorem le_of_rounds {x y : ℚ} (hv : Rounds x v.toModel.unpack) (hw : Rounds y w.toModel.unpack)
    (hle : x ≤ y) : v ≤ w :=
  (le_iff_place hv.isNumber hw.isNumber).mpr (hv.mono hw hle)

/-- A product of doubles is the rounded product of the numbers. -/
theorem rounds_float_mul (hv : v.isFinite = true) (hw : w.isFinite = true) :
    Rounds (toRat v * toRat w) (v * w).toModel.unpack :=
  rounds_mul (packed v) (packed w) hv hw

/-- A quotient of doubles is the rounded quotient. -/
theorem rounds_float_div (hv : v.isFinite = true) (hw : w.isFinite = true) (hne : toRat w ≠ 0) :
    Rounds (toRat v / toRat w) (v / w).toModel.unpack :=
  rounds_div (packed v) (packed w) hv hw hne

/-- A sum of doubles is the rounded sum, -/
theorem rounds_float_add (hv : v.isFinite = true) (hw : w.isFinite = true) :
    Rounds (toRat v + toRat w) (v + w).toModel.unpack :=
  rounds_add (packed v) (packed w) hv hw

/-- and a difference of doubles is the rounded difference. -/
theorem rounds_float_sub (hv : v.isFinite = true) (hw : w.isFinite = true) :
    Rounds (toRat v - toRat w) (v - w).toModel.unpack := by
  obtain ⟨hvalue, hpacked, hfin⟩ := value_neg (packed w) hw
  have hround := rounds_add (packed v) hpacked hv hfin
  rw [hvalue, ← sub_eq_add_neg, ← sub_eq_add_negated] at hround
  exact hround

/-- The magnitude of a double is that of its number. -/
theorem toRat_abs (hv : v.isFinite = true) : toRat v.abs = |toRat v| ∧ v.abs.isFinite = true := by
  have hmodel : v.toModel.unpack.isFinite = true := hv
  show value v.abs.toModel.unpack = |value v.toModel.unpack| ∧ v.abs.toModel.unpack.isFinite = true
  cases hu : v.toModel.unpack with
  | notANumber | infinity =>
    rw [hu] at hmodel
    cases hmodel
  | zero s =>
    rw [unpack_abs_of_zero hu]
    exact ⟨abs_zero.symm, rfl⟩
  | finite s m e h =>
    rw [unpack_abs hu]
    have hnonneg : (0 : ℚ) ≤ m * 2 ^ e := by positivity
    refine ⟨?_, rfl⟩
    show (unit .positive : ℚ) * (m * 2 ^ e) = |(unit s : ℚ) * (m * 2 ^ e)|
    rw [abs_mul, abs_of_nonneg hnonneg]
    cases s <;> norm_num [unit]

/-- What is no number is not finite, -/
theorem not_isFinite_notANumber : (repack .notANumber).isFinite = false := by decide +kernel

/-- and neither is an infinity. -/
theorem not_isFinite_infinity (s : Sign) : (repack (.infinity s)).isFinite = false := by
  cases s <;> decide +kernel

/-- An operation with anything that is not finite is not finite: first for sums. -/
theorem not_isFinite_add {u v : UnpackedFloat} (h : ¬(u.isFinite = true ∧ v.isFinite = true)) :
    (repack (UnpackedFloat.add Format.binary64 u v)).isFinite = false := by
  cases u with
  | notANumber => exact not_isFinite_notANumber
  | infinity s =>
    cases v with
    | notANumber => exact not_isFinite_notANumber
    | infinity s' =>
      -- infinities of one sign add up, and of different signs they cancel to what is no number
      cases s <;> cases s'
      · exact not_isFinite_infinity _
      · exact not_isFinite_notANumber
      · exact not_isFinite_notANumber
      · exact not_isFinite_infinity _
    | zero | finite => exact not_isFinite_infinity _
  | zero | finite =>
    cases v with
    | notANumber => exact not_isFinite_notANumber
    | infinity s' => exact not_isFinite_infinity _
    | zero | finite => exact absurd ⟨rfl, rfl⟩ h

/-- A sum is only finite if both numbers are. -/
theorem isFinite_of_add (h : (v + w).isFinite = true) : v.isFinite = true ∧ w.isFinite = true := by
  by_contra hnot
  have hadd : (v + w).isFinite = false := not_isFinite_add hnot
  rw [hadd] at h
  cases h

/-- A difference is only finite if both numbers are. -/
theorem isFinite_of_sub (h : (v - w).isFinite = true) : v.isFinite = true ∧ w.isFinite = true := by
  have hneg : w.toModel.unpack.neg.isFinite = w.toModel.unpack.isFinite := by
    cases w.toModel.unpack <;> rfl
  have hsub : (repack (UnpackedFloat.sub Format.binary64 v.toModel.unpack
      w.toModel.unpack)).isFinite = true := h
  by_contra hnot
  have hadd := not_isFinite_add (u := v.toModel.unpack) (v := w.toModel.unpack.neg)
    (by rw [hneg]; exact hnot)
  rw [sub_eq_add_negated, hadd] at hsub
  cases hsub

/-- Then for products, also of zero and an infinity. -/
theorem not_isFinite_mul {u v : UnpackedFloat} (h : ¬(u.isFinite = true ∧ v.isFinite = true)) :
    (repack (UnpackedFloat.mul Format.binary64 u v)).isFinite = false := by
  cases u with
  | notANumber => exact not_isFinite_notANumber
  | infinity s =>
    cases v with
    | notANumber | zero => exact not_isFinite_notANumber
    | infinity | finite => exact not_isFinite_infinity _
  | zero s =>
    cases v with
    | notANumber | infinity => exact not_isFinite_notANumber
    | zero | finite => exact absurd ⟨rfl, rfl⟩ h
  | finite =>
    cases v with
    | notANumber => exact not_isFinite_notANumber
    | infinity => exact not_isFinite_infinity _
    | zero | finite => exact absurd ⟨rfl, rfl⟩ h

/-- A product is only finite if both numbers are. -/
theorem isFinite_of_mul (h : (v * w).isFinite = true) : v.isFinite = true ∧ w.isFinite = true := by
  by_contra hnot
  have hmul : (v * w).isFinite = false := not_isFinite_mul hnot
  rw [hmul] at h
  cases h

/-- A product is only zero if both numbers are finite. -/
theorem isFinite_of_mul_beq_zero (h : (v * w == 0.0) = true) :
    v.isFinite = true ∧ w.isFinite = true := by
  refine isFinite_of_mul ?_
  show (v * w).toModel.unpack.isFinite = true
  rw [beq_iff, unpack_zero] at h
  -- what compares equal to zero is zero itself, which is finite
  cases hu : (v * w).toModel.unpack with
  | notANumber =>
    rw [hu] at h
    cases h
  | infinity s =>
    rw [hu] at h
    cases s <;> cases h
  | zero | finite => rfl

/-- A finite part of something infinite is nothing. -/
theorem unpack_div_infinite (hv : v.isFinite = true) (hw : w.isFinite ≠ true)
    (hnumber : w.toModel.unpack ≠ .notANumber) : ∃ s, (v / w).toModel.unpack = .zero s := by
  have hmodel : v.toModel.unpack.isFinite = true := hv
  have hmodel' : w.toModel.unpack.isFinite ≠ true := hw
  show ∃ s, repack (UnpackedFloat.div Format.binary64 v.toModel.unpack w.toModel.unpack) = .zero s
  cases hw : w.toModel.unpack with
  | notANumber => exact absurd hw hnumber
  | zero | finite =>
    rw [hw] at hmodel'
    exact absurd rfl hmodel'
  | infinity s' =>
    -- what is left to divide is finite, and an infinity makes it zero
    cases hv : v.toModel.unpack with
    | notANumber | infinity =>
      rw [hv] at hmodel
      cases hmodel
    | zero s | finite s => exact ⟨s / s', unpack_pack_zero _⟩

end Doubles

end CurvePlot.Double
