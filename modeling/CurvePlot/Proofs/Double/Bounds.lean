import CurvePlot.Proofs.Double.Arithmetic
/-!
# Bounds of computed doubles

A double is computed step by step, and each step rounds. Rounding keeps the order, so a result that
lies between two finite doubles is rounded to one that lies between them
(`Rounds.between`). The bounds have to be doubles themselves; `Representable` says that a number is
one, and whole multiples of powers of two are if there are enough bits for them
(`representable_mul_two_pow`).

What leaves the range is infinite, but it is still a number. No number comes of two infinities that
are taken from each other, and none of an infinity times nothing, so that one finite side of a sum
and one factor that is not zero are enough for a result that is a number.
-/

namespace CurvePlot.Double

open Float.Model (Format UnpackedFloat)
open Float.Model.UnpackedFloat (Sign)

/-! ### Numbers -/

section Unpacked

/-- An infinity is a number. -/
theorem isNumber_repack_infinity (s : Sign) : repack (.infinity s) ≠ .notANumber := by
  rw [repack, Packed.unpack_pack (u := .infinity s) trivial UnpackedFloat.noConfusion]
  exact UnpackedFloat.noConfusion

/-- The opposite of what can be packed can be packed. -/
theorem Packed.neg {u : UnpackedFloat} (hu : Packed u) : Packed u.neg := by
  cases u with
  | notANumber | infinity | zero => trivial
  | finite s m e h => exact hu

/-- The opposite of a number has the opposite place. -/
theorem place_neg (u : UnpackedFloat) : place u.neg = -place u := by
  cases u with
  | notANumber | zero => rfl
  | infinity s | finite s =>
    show unit (-s) * _ = -(unit s * _)
    rw [unit_neg, neg_mul]

/-- The opposite of a number is a number. -/
theorem isNumber_neg {u : UnpackedFloat} (hu : u ≠ .notANumber) : u.neg ≠ .notANumber := by
  cases u with
  | notANumber => exact absurd rfl hu
  | infinity | zero | finite => exact nofun

variable {u v : UnpackedFloat} (hu : Packed u) (hv : Packed v) (hnumber : u ≠ .notANumber)
include hu hv hnumber

/-- **A sum is a number** if both sides are and one is finite. -/
theorem isNumber_repack_add (hnumber' : v ≠ .notANumber)
    (h : u.isFinite = true ∨ v.isFinite = true) :
    repack (UnpackedFloat.add Format.binary64 u v) ≠ .notANumber := by
  cases u with
  | notANumber => exact absurd rfl hnumber
  | infinity s =>
    cases v with
    | notANumber => exact absurd rfl hnumber'
    | infinity => rcases h with h | h <;> cases h
    | zero | finite => exact isNumber_repack_infinity s
  | zero | finite =>
    cases v with
    | notANumber => exact absurd rfl hnumber'
    | infinity s => exact isNumber_repack_infinity s
    | zero | finite => exact (rounds_add hu hv rfl rfl).isNumber

variable (hfin : v.isFinite = true)
include hfin

/-- **A product is a number** if one factor is finite and not zero. -/
theorem isNumber_repack_mul (hne : value v ≠ 0) :
    repack (UnpackedFloat.mul Format.binary64 u v) ≠ .notANumber := by
  cases u with
  | notANumber => exact absurd rfl hnumber
  | infinity s =>
    cases v with
    | notANumber | infinity => cases hfin
    | zero => exact absurd rfl hne
    | finite => exact isNumber_repack_infinity _
  | zero | finite => exact (rounds_mul hu hv rfl hfin).isNumber

/-- **A quotient is a number** if the divisor is finite and not zero. -/
theorem isNumber_repack_div (hne : value v ≠ 0) :
    repack (UnpackedFloat.div Format.binary64 u v) ≠ .notANumber := by
  cases u with
  | notANumber => exact absurd rfl hnumber
  | infinity s =>
    cases v with
    | notANumber | infinity => cases hfin
    | zero => exact absurd rfl hne
    | finite => exact isNumber_repack_infinity _
  | zero | finite => exact (rounds_div hu hv rfl hfin hne).isNumber

end Unpacked

section Number

variable {v w : Float} (hv : v.toModel.unpack ≠ .notANumber)
include hv

/-- The sum of two doubles of which one is finite is a number. -/
theorem isNumber_add (hw : w.toModel.unpack ≠ .notANumber)
    (h : v.isFinite = true ∨ w.isFinite = true) : (v + w).toModel.unpack ≠ .notANumber :=
  isNumber_repack_add (packed v) (packed w) hv hw h

variable (hw : w.isFinite = true)
include hw

/-- A number taken from a finite double is a number. -/
theorem isNumber_sub : (w - v).toModel.unpack ≠ .notANumber := by
  have hadd := isNumber_repack_add (packed w) (packed v).neg (isNumber_of_isFinite hw)
    (isNumber_neg hv) (.inl hw)
  rw [← sub_eq_add_negated] at hadd
  exact hadd

/-- A number times a finite double other than zero is a number. -/
theorem isNumber_mul (hne : toRat w ≠ 0) : (v * w).toModel.unpack ≠ .notANumber :=
  isNumber_repack_mul (packed v) (packed w) hv hw hne

/-- A number divided by a finite double other than zero is a number. -/
theorem isNumber_div (hne : toRat w ≠ 0) : (v / w).toModel.unpack ≠ .notANumber :=
  isNumber_repack_div (packed v) (packed w) hv hw hne

end Number

/-- What is not undefined is a number. -/
theorem isNaN_eq_false_iff {v : Float} : v.isNaN = false ↔ v.toModel.unpack ≠ .notANumber := by
  show v.toModel.unpack.isNaN = false ↔ _
  cases v.toModel.unpack with
  | notANumber => exact iff_of_false nofun (absurd rfl)
  | infinity | zero | finite => exact iff_of_true rfl nofun

/-- What is neither infinite nor undefined is finite. -/
theorem isFinite_iff {v : Float} : v.isFinite = true ↔ v.isInf = false ∧ v.isNaN = false := by
  show v.toModel.unpack.isFinite = true ↔
    v.toModel.unpack.isInf = false ∧ v.toModel.unpack.isNaN = false
  cases v.toModel.unpack with
  | notANumber | infinity => exact iff_of_false nofun nofun
  | zero | finite => exact iff_of_true rfl ⟨rfl, rfl⟩

/-! ### Bounds -/

/-- A number that a finite double is. -/
def Representable (x : ℚ) : Prop := ∃ u, Packed u ∧ u.isFinite = true ∧ value u = x

section Bounds

variable {v : Float} {x l r : ℚ}

/-- The number of a finite double is one that a double is. -/
theorem representable_toRat (hv : v.isFinite = true) : Representable (toRat v) :=
  ⟨v.toModel.unpack, packed v, hv, rfl⟩

/-- Zero is a double. -/
theorem representable_zero : Representable 0 := ⟨.zero .positive, trivial, rfl, rfl⟩

/-- So is the opposite of a double. -/
theorem Representable.neg (h : Representable x) : Representable (-x) := by
  obtain ⟨u, hu, hfin, rfl⟩ := h
  obtain ⟨hvalue, hneg, hfin'⟩ := value_neg hu hfin
  exact ⟨u.neg, hneg, hfin', hvalue⟩

/-- Whole numbers that are no longer than a mantissa are doubles, in all units that are neither too
small nor too large. -/
theorem representable_mul_two_pow {n : ℕ} (hn : n < 2 ^ 53) {e : ℤ} (hge : -1022 ≤ e)
    (hle : e ≤ 971) : Representable (n * 2 ^ e) := by
  by_cases hzero : n = 0
  · -- zero has no mantissa
    rw [hzero, Nat.cast_zero, zero_mul]
    exact representable_zero
  · have hlog : n.log2 < 53 := (Nat.log2_lt hzero).mpr hn
    have hself : 2 ^ n.log2 ≤ n := Nat.log2_self_le hzero
    have hlt : n < 2 ^ (n.log2 + 1) := Nat.lt_log2_self
    -- the number is shifted until all bits of the mantissa are in use
    let shift : ℕ := 52 - n.log2
    have hlower : 2 ^ 52 ≤ n * 2 ^ shift := by
      calc 2 ^ 52 = 2 ^ n.log2 * 2 ^ shift := by rw [← Nat.pow_add]; congr 1; omega
        _ ≤ n * 2 ^ shift := Nat.mul_le_mul_right _ hself
    have hupper : n * 2 ^ shift < 2 ^ 53 := by
      calc n * 2 ^ shift < 2 ^ (n.log2 + 1) * 2 ^ shift :=
            Nat.mul_lt_mul_of_pos_right hlt (Nat.two_pow_pos _)
        _ = 2 ^ 53 := by rw [← Nat.pow_add]; congr 1; omega
    have hpos : 0 < n * 2 ^ shift := Nat.lt_of_lt_of_le (by decide) hlower
    refine ⟨.finite .positive (n * 2 ^ shift) (e - shift) hpos,
      ⟨⟨hpos, hupper, by omega, .inl hlower⟩, by omega⟩, rfl, ?_⟩
    show ((1 : ℤ) : ℚ) * ((n * 2 ^ shift : ℕ) * 2 ^ (e - shift : ℤ)) = n * 2 ^ e
    rw [Int.cast_one, one_mul, Nat.cast_mul, Nat.cast_pow, Nat.cast_two, zpow_sub₀ two_ne_zero,
      zpow_natCast, mul_assoc, mul_div_cancel₀ _ (by positivity)]

/-- A power of two is a double, if it is neither too small nor too large. -/
theorem representable_two_pow {e : ℤ} (hge : -1022 ≤ e) (hle : e ≤ 971) :
    Representable (2 ^ e) := by
  have h := representable_mul_two_pow (n := 1) (by decide) hge hle
  rwa [Nat.cast_one, one_mul] at h

/-- Opposite numbers are rounded to opposite places. -/
theorem Rounds.neg {u : UnpackedFloat} (h : Rounds x u) : Rounds (-x) u.neg := by
  obtain ⟨s, y, r, hy, rfl, hr, hplace⟩ := h.place_eq
  refine ⟨isNumber_neg h.isNumber, -s, y, r, hy, ?_, hr, ?_⟩
  · rw [unit_neg, Int.cast_neg, neg_mul]
  · rw [place_neg, hplace, unit_neg, neg_mul]

/-- **What lies between finite doubles is rounded to one that does.** -/
theorem Rounds.between (h : Rounds x v.toModel.unpack) (hl : Representable l)
    (hr : Representable r) (hlx : l ≤ x) (hxr : x ≤ r) :
    v.isFinite = true ∧ l ≤ toRat v ∧ toRat v ≤ r := by
  obtain ⟨a, ha, hafin, rfl⟩ := hl
  obtain ⟨b, hb, hbfin, rfl⟩ := hr
  have hlower : place a ≤ place v.toModel.unpack := (Rounds.self ha hafin).mono h hlx
  have hupper : place v.toModel.unpack ≤ place b := h.mono (.self hb hbfin) hxr
  have hleast : -1 * (beyond : ℤ) < place a := (ha.place_bounds hafin).1
  have hgreatest : place b < 1 * (beyond : ℤ) := (hb.place_bounds hbfin).2
  have hfin : v.isFinite = true := isFinite_of_place h.isNumber (by omega) (by omega)
  exact ⟨hfin, (value_le_iff ha (packed v) hafin hfin).mpr hlower,
    (value_le_iff (packed v) hb hfin hbfin).mpr hupper⟩

/-- What is no greater than a double is rounded to a finite one. -/
theorem Rounds.isFinite_of_abs_le (h : Rounds x v.toModel.unpack) (hr : Representable r)
    (hx : |x| ≤ r) : v.isFinite = true :=
  (h.between hr.neg hr (neg_le_of_abs_le hx) (le_of_abs_le hx)).1

/-- What is above zero is kept as a whole multiple of some power of two. -/
theorem exists_toRat_eq (hv : v.isFinite = true) (hpos : 0 < toRat v) :
    ∃ m e h, v.toModel.unpack = .finite .positive m e h ∧ Canonical m e ∧ e ≤ 971 ∧
      toRat v = m * 2 ^ e := by
  have hlt : 0.0 < v := (lt_iff_toRat isFinite_zero hv).mpr (toRat_zero ▸ hpos)
  obtain ⟨m, e, h, hunpack⟩ := finite_of_pos hv hlt
  obtain ⟨hc, he⟩ := canonical_of_unpack hunpack
  refine ⟨m, e, h, hunpack, hc, he, ?_⟩
  rw [toRat, hunpack]
  show ((1 : ℤ) : ℚ) * (m * 2 ^ e) = m * 2 ^ e
  rw [Int.cast_one, one_mul]

/-- The least double above zero, and what all doubles are below. -/
theorem toRat_bounds (hv : v.isFinite = true) (hpos : 0 < toRat v) :
    2 ^ (-1074 : ℤ) ≤ toRat v ∧ toRat v ≤ 2 ^ (1024 : ℤ) := by
  obtain ⟨m, e, hm, -, hc, he, hvalue⟩ := exists_toRat_eq hv hpos
  have hlower : (1 : ℚ) ≤ m := by exact_mod_cast hm
  have hupper : (m : ℚ) ≤ 2 ^ (53 : ℤ) := by exact_mod_cast hc.lt.le
  rw [hvalue]
  constructor
  · -- the mantissa is at least one
    calc (2 : ℚ) ^ (-1074 : ℤ) ≤ 2 ^ e := zpow_le_zpow_right₀ (by norm_num) hc.ge
      _ = 1 * 2 ^ e := (one_mul _).symm
      _ ≤ m * 2 ^ e := mul_le_mul_of_nonneg_right hlower (by positivity)
  · -- and it has at most 53 bits
    calc (m : ℚ) * 2 ^ e ≤ 2 ^ (53 : ℤ) * 2 ^ (971 : ℤ) :=
          mul_le_mul hupper (zpow_le_zpow_right₀ (by norm_num) he) (by positivity) (by positivity)
      _ = 2 ^ (1024 : ℤ) := by rw [← zpow_add₀ two_ne_zero, show (53 + 971 : ℤ) = 1024 from rfl]

end Bounds

end CurvePlot.Double
