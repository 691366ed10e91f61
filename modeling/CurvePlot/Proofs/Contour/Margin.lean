import CurvePlot.Proofs.Contour.Reuse
import CurvePlot.Proofs.Viewport
/-!
# The margin of the fine pass makes up for the drift

A fine contour goes on serving while the center of the view drifts, up to a part of the visible
span, and what comes into sight meanwhile was not visible when the contour was traced. It was
traced all the same: the fine pass covers more than the visible region, and if its region is
larger by twice the part that the center may drift, then all that is shown while the contour
serves lies on the outer lattice (`shown_covered`). Nothing is left over: at the standard settings
the region is larger by one fifth, and the center may drift by one tenth.

There are two halves to it. The region is laid about the old center and what is shown lies about
the new one, so it reaches far enough on either side (`abs_sub_le_of_drift`). And the lattice
begins in one corner of the region, so it has to have enough cells to come to the corner across,
for which their number is rounded up (`length_le_cellCount`).

It is said here of exact numbers.
-/

namespace CurvePlot

/-- The view shows the point. -/
structure Viewport.Shows (v : Viewport Exact) (x y : Exact) : Prop where
  /-- It is not to the left of what is seen, -/
  left : v.rangeX.1 ≤ x
  /-- nor to the right, -/
  right : x ≤ v.rangeX.2
  /-- nor below, -/
  bottom : v.rangeY.1 ≤ y
  /-- nor above. -/
  top : y ≤ v.rangeY.2

namespace Lattice

/-- The point lies in the cell of that column and row. -/
structure InCell (l : Lattice Exact) (cell : Nat × Nat) (x y : Exact) : Prop where
  left : l.x cell.1 ≤ x
  right : x ≤ l.x (cell.1 + 1)
  bottom : l.y (cell.2 + 1) ≤ y
  top : y ≤ l.y cell.2

/-- The point lies in the rectangle that all cells make up together. -/
structure Covers (l : Lattice Exact) (x y : Exact) : Prop where
  left : l.x 0 ≤ x
  right : x ≤ l.x l.columns
  bottom : l.y l.rows ≤ y
  top : y ≤ l.y 0

/-! ### Cells -/

variable {l : Lattice Exact} {x y : Exact}

/-- Between the first and the last there are two neighbours with the turn between them. -/
theorem exists_turn {before behind : Nat → Prop} (htotal : ∀ i, before i ∨ behind i) {n : Nat}
    (hn : n ≠ 0) (hfirst : before 0) (hlast : behind n) : ∃ i < n, before i ∧ behind (i + 1) := by
  induction n with
  | zero => exact absurd rfl hn
  | succ n ih =>
    by_cases hbefore : before n
    · exact ⟨n, Nat.lt_succ_self n, hbefore, hlast⟩
    · -- the turn comes before
      have hbehind : behind n := (htotal n).resolve_left hbefore
      have hn' : n ≠ 0 := by
        rintro rfl
        exact hbefore hfirst
      obtain ⟨i, hi, hturn⟩ := ih hn' hbehind
      exact ⟨i, Nat.lt_succ_of_lt hi, hturn⟩

/-- The columns stand one width apart, from the left. -/
theorem x_number {minX dx : ℝ} (hminX : l.minX = .number minX) (hdx : l.dx = .number dx) (i : Nat) :
    l.x i = .number (i * dx + minX) := by
  rw [x, placeX, hminX, hdx]
  rfl

/-- The rows stand one height apart, from the top. -/
theorem y_number {maxY dy : ℝ} (hmaxY : l.maxY = .number maxY) (hdy : l.dy = .number dy) (j : Nat) :
    l.y j = .number (j * -dy + maxY) := by
  rw [y, placeY, hmaxY, hdy]
  rfl

/-- **The rectangle is made up of the cells.** -/
theorem Covers.exists_cell {minX maxY dx dy : ℝ} (hminX : l.minX = .number minX)
    (hdx : l.dx = .number dx) (hmaxY : l.maxY = .number maxY) (hdy : l.dy = .number dy)
    (h : l.Covers x y) (hcolumns : l.columns ≠ 0) (hrows : l.rows ≠ 0) :
    ∃ cell ∈ l.cells, l.InCell cell x y := by
  obtain ⟨_, s, -, rfl, -⟩ := Exact.le_iff.mp h.left
  obtain ⟨_, t, -, rfl, -⟩ := Exact.le_iff.mp h.bottom
  -- numbers can be compared, so the columns run past the point
  have htotalX (i : Nat) : l.x i ≤ .number s ∨ .number s ≤ l.x i := by
    rw [x_number hminX hdx, Exact.number_le, Exact.number_le]
    exact le_total _ s
  have htotalY (j : Nat) : .number t ≤ l.y j ∨ l.y j ≤ .number t := by
    rw [y_number hmaxY hdy, Exact.number_le, Exact.number_le]
    exact le_total t _
  obtain ⟨i, hi, hleft, hright⟩ := exists_turn htotalX hcolumns h.left h.right
  -- the rows count downwards
  obtain ⟨j, hj, htop, hbottom⟩ := exists_turn htotalY hrows h.top h.bottom
  exact ⟨(i, j), mem_cells.mpr ⟨hi, hj⟩, hleft, hright, hbottom, htop⟩

end Lattice

namespace Contour

/-! ### One axis -/

/-- **What is shown lies within the region that was traced.** -/
theorem abs_sub_le_of_drift {old new span tolerance region v : ℝ}
    (hregion : 1 + 2 * tolerance ≤ region) (hdrift : |old - new| ≤ tolerance * span)
    (hshown : |v - new| ≤ span / 2) : |v - old| ≤ span / 2 * region := by
  have hspan : 0 ≤ span / 2 := (abs_nonneg _).trans hshown
  calc |v - old| ≤ |v - new| + |new - old| := abs_sub_le v new old
    _ = |v - new| + |old - new| := by rw [abs_sub_comm new old]
    _ ≤ span / 2 + tolerance * span := add_le_add hshown hdrift
    _ = span / 2 * (1 + 2 * tolerance) := by ring
    _ ≤ span / 2 * region := mul_le_mul_of_nonneg_left hregion hspan

/-- The number of cells is rounded up. -/
theorem cellCount_eq (length : ℝ) {cell : ℝ} (hcell : 0 < cell) :
    cellCount (Exact.number length) (Exact.number cell) = ⌈length / cell⌉₊ := by
  have hcount : Scalar.ceil (.number length / .number cell : Exact) = .number ⌈length / cell⌉ := by
    rw [Exact.number_div _ _ hcell.ne']
    rfl
  have hnat : Scalar.toNat (.number ⌈length / cell⌉ : Exact) = ⌈length / cell⌉₊ := by
    show ⌊(⌈length / cell⌉ : ℝ)⌋₊ = _
    rw [← Int.floor_toNat, Int.floor_intCast, Int.ceil_toNat]
  unfold cellCount
  simp only [hcount, hnat]
  split
  · rfl
  · next hnone =>
    -- no cells are needed
    have hcount : ¬(0 < ⌈length / cell⌉) := by
      intro hpos
      refine hnone (Bool.and_eq_true_iff.mpr ⟨rfl, decide_eq_true ?_⟩)
      exact Exact.zero_lt_iff.mpr ⟨_, rfl, Int.cast_pos.mpr hpos⟩
    rw [← Int.ceil_toNat, Int.toNat_of_nonpos (not_lt.mp hcount)]

/-- **The cells come to the end of the length.** -/
theorem length_le_cellCount (length : ℝ) {cell : ℝ} (hcell : 0 < cell) :
    length ≤ cellCount (Exact.number length) (Exact.number cell) * cell := by
  rw [cellCount_eq length hcell]
  exact (div_le_iff₀ hcell).mp (Nat.le_ceil _)

/-- A length of some extent needs cells. -/
theorem cellCount_ne_zero {length cell : ℝ} (hlength : 0 < length) (hcell : 0 < cell) :
    cellCount (Exact.number length) (Exact.number cell) ≠ 0 := by
  intro hnone
  have hcovered := length_le_cellCount length hcell
  rw [hnone, Nat.cast_zero, zero_mul] at hcovered
  exact absurd hlength (not_lt.mpr hcovered)

end Contour

section

variable {a b k w h : ℝ}

/-- **A view shows what lies within half a span about its center.** -/
theorem Viewport.shows_number (hk : k ≠ 0) {u v : ℝ} :
    (Viewport.ofNumbers a b k w h).Shows (.number u) (.number v) ↔
      |u - a| ≤ w / k / 2 ∧ |v - b| ≤ h / k / 2 := by
  have hshows : (Viewport.ofNumbers a b k w h).Shows (.number u) (.number v) ↔
      (a - w / k / 2 ≤ u ∧ u ≤ a + w / k / 2) ∧ b - h / k / 2 ≤ v ∧ v ≤ b + h / k / 2 := by
    constructor
    · rintro ⟨hleft, hright, hbottom, htop⟩
      -- the borders of the view are numbers, so the comparisons are those of numbers
      simp only [rangeX, rangeY, ofNumbers, half_eq hk, Exact.number_sub, Exact.number_add,
        Exact.number_le] at hleft hright hbottom htop
      exact ⟨⟨hleft, hright⟩, hbottom, htop⟩
    · rintro ⟨⟨hleft, hright⟩, hbottom, htop⟩
      constructor
      all_goals simpa only [rangeX, rangeY, ofNumbers, half_eq hk, Exact.number_sub,
        Exact.number_add, Exact.number_le]
  rw [hshows, abs_sub_le_iff, abs_sub_le_iff]
  constructor
  · rintro ⟨⟨hleft, hright⟩, hbottom, htop⟩
    exact ⟨⟨by linarith, by linarith⟩, by linarith, by linarith⟩
  · rintro ⟨⟨hright, hleft⟩, htop, hbottom⟩
    exact ⟨⟨by linarith, by linarith⟩, by linarith, by linarith⟩

/-- No other points are shown. -/
theorem Viewport.Shows.exists_numbers {view : Viewport Exact} {x y : Exact}
    (hshown : view.Shows x y) : ∃ u v : ℝ, x = .number u ∧ y = .number v := by
  obtain ⟨_, u, -, hu, -⟩ := Exact.le_iff.mp hshown.left
  obtain ⟨_, v, -, hv, -⟩ := Exact.le_iff.mp hshown.bottom
  exact ⟨u, v, hu, hv⟩

namespace Contour

variable {s : Settings Exact} {d f : ℝ}

/-- The outer grid has numbers for its measures. -/
theorem outerGrid_ofNumbers (hk : 0 < k) (hcell : s.fineCell = .number d)
    (hregion : s.fineRegion = .number f) :
    outerGrid (.ofNumbers a b k w h) s =
      { minX := .number (a - w / k / 2 * f)
        maxY := .number (b + h / k / 2 * f)
        cell := .number (d / k)
        columns := cellCount (Exact.number (2 * (w / k / 2 * f))) (Exact.number (d / k))
        rows := cellCount (Exact.number (2 * (h / k / 2 * f))) (Exact.number (d / k)) } := by
  simp only [outerGrid, Viewport.ofNumbers, Viewport.scale, hcell, hregion, Exact.two_literal,
    Exact.number_div _ _ hk.ne', Exact.number_div _ _ (two_ne_zero (α := ℝ)), Exact.number_mul,
    Exact.number_sub, Exact.number_add]

/-- **The outer lattice covers its region.** -/
theorem covers_outerGrid (hd : 0 < d) (hk : 0 < k) (hcell : s.fineCell = .number d)
    (hregion : s.fineRegion = .number f) (field : Exact → Exact → Exact) {u v : ℝ}
    (hu : |u - a| ≤ w / k / 2 * f) (hv : |v - b| ≤ h / k / 2 * f) :
    ((outerGrid (.ofNumbers a b k w h) s).lattice field).Covers (.number u) (.number v) := by
  have hdk : 0 < d / k := div_pos hd hk
  have hcolumns := length_le_cellCount (2 * (w / k / 2 * f)) hdk
  have hrows := length_le_cellCount (2 * (h / k / 2 * f)) hdk
  obtain ⟨hleft, hright⟩ := abs_sub_le_iff.mp hu
  obtain ⟨htop, hbottom⟩ := abs_sub_le_iff.mp hv
  rw [outerGrid_ofNumbers hk hcell hregion]
  constructor
  · -- the first column is the left end of the region
    rw [Lattice.x_number rfl rfl, Exact.number_le]
    rw [Nat.cast_zero, zero_mul]
    linarith
  · rw [Lattice.x_number rfl rfl, Exact.number_le]
    -- from the left end of the region the columns come to its right end
    calc u ≤ 2 * (w / k / 2 * f) + (a - w / k / 2 * f) := by linarith
      _ ≤ _ := add_le_add hcolumns le_rfl
  · -- the rows come to its lower end
    rw [Lattice.y_number rfl rfl, Exact.number_le]
    calc _ ≤ -(2 * (h / k / 2 * f)) + (b + h / k / 2 * f) := by
          rw [mul_neg]
          exact add_le_add (neg_le_neg hrows) le_rfl
      _ ≤ v := by linarith
  · -- the first row is its upper end
    rw [Lattice.y_number rfl rfl, Exact.number_le]
    rw [Nat.cast_zero, zero_mul]
    linarith

/-- **Where there is something to be seen, the lattice has cells,** and what it covers lies in
them. -/
theorem exists_cell_of_covers (hd : 0 < d) (hk : 0 < k) (hf : 0 < f) (hw : 0 < w) (hh : 0 < h)
    (hcell : s.fineCell = .number d) (hregion : s.fineRegion = .number f)
    {field : Exact → Exact → Exact} {x y : Exact}
    (hcovers : ((outerGrid (.ofNumbers a b k w h) s).lattice field).Covers x y) :
    (outerGrid (.ofNumbers a b k w h) s).isDegenerate = false ∧
      ∃ cell ∈ ((outerGrid (.ofNumbers a b k w h) s).lattice field).cells,
        ((outerGrid (.ofNumbers a b k w h) s).lattice field).InCell cell x y := by
  rw [outerGrid_ofNumbers hk hcell hregion] at hcovers ⊢
  have hcolumns := cellCount_ne_zero (show 0 < 2 * (w / k / 2 * f) by positivity) (div_pos hd hk)
  have hrows := cellCount_ne_zero (show 0 < 2 * (h / k / 2 * f) by positivity) (div_pos hd hk)
  constructor
  · rw [Grid.isDegenerate, beq_false_of_ne hcolumns, beq_false_of_ne hrows]
    rfl
  · exact hcovers.exists_cell rfl rfl rfl rfl hcolumns hrows

end Contour

end

namespace Contour

/-- **A contour serves views with numbers only,** of the scale and the surface that it was traced
under. -/
theorem exists_numbers_of_isReusable {c : Contour Exact} {view : Viewport Exact} {tolerance : Exact}
    {k : ℝ} (hscale : view.camera.scale = .number k) (hk : k ≠ 0)
    (hreuse : c.isReusable view tolerance = true) :
    ∃ a b a' b' w h t : ℝ, c.viewport = .ofNumbers a b k w h ∧ view = .ofNumbers a' b' k w h ∧
      tolerance = .number t ∧ |a - a'| ≤ t * (w / k) ∧ |b - b'| ≤ t * (h / k) := by
  obtain ⟨_, ⟨⟨oldX, oldY, oldScale⟩, oldWidth, oldHeight⟩, _⟩ := c
  obtain ⟨⟨newX, newY, newScale⟩, newWidth, newHeight⟩ := view
  obtain rfl : newScale = .number k := hscale
  obtain ⟨⟨hscales, hwidths, hheights⟩, hdriftX, hdriftY⟩ := isReusable_iff.mp hreuse
  -- what is compared equal is the same number, and what lies within a bound is a number
  obtain ⟨_, rfl, hk'⟩ := Exact.beq_iff.mp hscales
  obtain ⟨w, rfl, rfl⟩ := Exact.beq_iff.mp hwidths
  obtain ⟨h, rfl, rfl⟩ := Exact.beq_iff.mp hheights
  simp only [Exact.number_div _ _ hk] at hdriftX hdriftY
  obtain ⟨a, a', t, rfl, rfl, rfl, hX⟩ := Exact.exists_of_abs_sub_le hdriftX
  obtain ⟨b, b', t', rfl, rfl, ht, hY⟩ := Exact.exists_of_abs_sub_le hdriftY
  obtain rfl := Exact.number.inj ht
  refine ⟨a, b, a', b', w, h, t, ?_, rfl, rfl, hX, hY⟩
  rw [← hk']
  rfl

/-- **What is shown while a fine contour serves was traced.** The outer lattice covers it, and if
there is anything to be seen at all, the lattice has cells and the point lies in one of them. -/
theorem shown_covered {s : Settings Exact} {c : Contour Exact} {view : Viewport Exact}
    (hcell : 0.0 < s.fineCell) (hregion : 1.0 + 2.0 * s.driftTolerance ≤ s.fineRegion)
    (hscale : 0.0 < view.camera.scale) (hreuse : c.isReusable view s.driftTolerance = true)
    (field : Exact → Exact → Exact) {x y : Exact} (hshown : view.Shows x y) :
    let grid := outerGrid c.viewport s
    let outer := grid.lattice field
    outer.Covers x y ∧ (0.0 < view.width → 0.0 < view.height →
      grid.isDegenerate = false ∧ ∃ cell ∈ outer.cells, outer.InCell cell x y) := by
  intro grid outer
  obtain ⟨d, hd, hdpos⟩ := Exact.zero_lt_iff.mp hcell
  obtain ⟨k, hk, hkpos⟩ := Exact.zero_lt_iff.mp hscale
  obtain ⟨a, b, a', b', w, h, t, hold, rfl, ht, hdriftX, hdriftY⟩ :=
    exists_numbers_of_isReusable hk hkpos.ne' hreuse
  obtain ⟨f, hf, hfactor⟩ : ∃ f : ℝ, s.fineRegion = .number f ∧ 1 + 2 * t ≤ f := by
    rw [ht, Exact.one_literal, Exact.two_literal, Exact.number_mul, Exact.number_add] at hregion
    obtain ⟨_, f, hleft, hf, hle⟩ := Exact.le_iff.mp hregion
    exact ⟨f, hf, Exact.number.inj hleft ▸ hle⟩
  obtain ⟨u, v, rfl, rfl⟩ := hshown.exists_numbers
  obtain ⟨hu, hv⟩ := (Viewport.shows_number hkpos.ne').mp hshown
  have hcovers : outer.Covers (.number u) (.number v) := by
    unfold outer grid
    rw [hold]
    exact covers_outerGrid hdpos hkpos hd hf field (abs_sub_le_of_drift hfactor hdriftX hu)
      (abs_sub_le_of_drift hfactor hdriftY hv)
  refine ⟨hcovers, ?_⟩
  intro hwidth hheight
  obtain ⟨_, hw, hwpos⟩ := Exact.zero_lt_iff.mp hwidth
  obtain ⟨_, hh, hhpos⟩ := Exact.zero_lt_iff.mp hheight
  obtain rfl := Exact.number.inj hw
  obtain rfl := Exact.number.inj hh
  -- nobody drifts by less than nothing
  have htolerance : 0 ≤ t :=
    nonneg_of_mul_nonneg_left ((abs_nonneg _).trans hdriftX) (div_pos hwpos hkpos)
  have hfpos : 0 < f := by linarith
  unfold outer grid at hcovers ⊢
  rw [hold] at hcovers ⊢
  exact exists_cell_of_covers hdpos hkpos hfpos hwpos hhpos hd hf hcovers

/-- The standard settings leave nothing over. -/
theorem region_standard :
    (1.0 : Exact) + 2.0 * (Settings.standard : Settings Exact).driftTolerance =
      (Settings.standard : Settings Exact).fineRegion := by
  show (1.0 : Exact) + 2.0 * 0.1 = 1.2
  rw [Exact.one_literal, Exact.two_literal, Exact.ofScientific_eq, Exact.ofScientific_eq,
    Exact.number_mul, Exact.number_add]
  norm_num

/-- A window of 800 by 600, after the center has drifted by a tenth of the visible span: what is
seen at the right border lies on the border of the region that was traced. -/
theorem shown_covered_drifted :
    let s : Settings Exact := .standard
    let c : Contour Exact := ⟨[], .ofNumbers 0 0 50 800 600, .fine⟩
    let view : Viewport Exact := .ofNumbers 1.6 0 50 800 600
    let outer := (outerGrid c.viewport s).lattice fun x y => y * y - x
    c.isReusable view s.driftTolerance = true ∧ view.Shows (.number 9.6) (.number 0) ∧
      outer.Covers (.number 9.6) (.number 0) ∧
      ∃ cell ∈ outer.cells, outer.InCell cell (.number 9.6) (.number 0) := by
  intro s c view outer
  have hcell : 0.0 < s.fineCell := by
    show (0.0 : Exact) < 15.0
    rw [Exact.ofScientific_eq]
    exact Exact.zero_lt_iff.mpr ⟨_, rfl, by norm_num⟩
  have hregion : 1.0 + 2.0 * s.driftTolerance ≤ s.fineRegion := by
    rw [region_standard]
    exact Exact.number_le.mpr le_rfl
  have hpositive (length : ℝ) (h : 0 < length) : 0.0 < Exact.number length :=
    Exact.zero_lt_iff.mpr ⟨length, rfl, h⟩
  have hscale : 0.0 < view.camera.scale := hpositive 50 (by norm_num)
  have hspan (length : ℝ) : s.driftTolerance * (Exact.number length / Exact.number 50) =
      .number (0.1 * (length / 50)) := by
    rw [Exact.number_div _ _ (by norm_num)]
    rfl
  have hreuse : c.isReusable view s.driftTolerance = true := by
    refine isReusable_iff.mpr ⟨⟨?_, ?_, ?_⟩, ?_, ?_⟩
    · exact Exact.beq_iff.mpr ⟨50, rfl, rfl⟩
    · exact Exact.beq_iff.mpr ⟨800, rfl, rfl⟩
    · exact Exact.beq_iff.mpr ⟨600, rfl, rfl⟩
    · show Exact.number |0 - 1.6| ≤ s.driftTolerance * (Exact.number 800 / Exact.number 50)
      rw [hspan, Exact.number_le]
      norm_num [abs_of_neg]
    · show Exact.number |0 - 0| ≤ s.driftTolerance * (Exact.number 600 / Exact.number 50)
      rw [hspan, Exact.number_le]
      norm_num
  have hshown : view.Shows (.number 9.6) (.number 0) :=
    (Viewport.shows_number (by norm_num)).mpr ⟨by norm_num, by norm_num⟩
  obtain ⟨hcovers, hcells⟩ :=
    shown_covered hcell hregion hscale hreuse (fun x y => y * y - x) hshown
  exact ⟨hreuse, hshown, hcovers,
    (hcells (hpositive 800 (by norm_num)) (hpositive 600 (by norm_num))).2⟩

end Contour

end CurvePlot
