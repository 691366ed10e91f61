import CurvePlot.Contour
import CurvePlot.Proofs.Double.Order
/-!
# Which contours may be used again

A contour may be used under another view of the same scale and surface if the center has
not moved too far. Under a view whose numbers are ordinary ones (`Viewport.Regular`) this
is as one would expect: what may be used within no tolerance may be used within any
(`isReusable_of_zero`), and a contour traced under the view itself may always be used
(`isReusable_of_beq`). Both fail for views in general, since nothing is near to what is no
number and no span is left of an infinite scale. For the second, within no tolerance, it is
enough that all numbers are finite (`Viewport.IsFinite`, `isReusable_self`).

Equal views are traced alike (`fine_of_beq`), although the zeros in them may differ in their
sign.
-/

namespace CurvePlot

/-- **Center, sizes and visible spans are finite.** -/
structure Viewport.IsFinite (v : Viewport Float) : Prop where
  /-- The first coordinate of the center. -/
  x_finite : v.camera.x.isFinite = true
  /-- The second coordinate of the center. -/
  y_finite : v.camera.y.isFinite = true
  /-- The width of the surface. -/
  width_finite : v.width.isFinite = true
  /-- The height of the surface. -/
  height_finite : v.height.isFinite = true
  /-- The span along the first axis. -/
  spanX_finite : (v.width / v.camera.scale).isFinite = true
  /-- The span along the second axis. -/
  spanY_finite : (v.height / v.camera.scale).isFinite = true

/-- **The center is finite, and the sizes and visible spans are finite and positive.** -/
structure Viewport.Regular (v : Viewport Float) : Prop where
  x_finite : v.camera.x.isFinite = true
  y_finite : v.camera.y.isFinite = true
  width_finite : v.width.isFinite = true
  width_pos : (0.0 : Float) < v.width
  height_finite : v.height.isFinite = true
  height_pos : (0.0 : Float) < v.height
  /-- The span along the first axis. -/
  spanX_finite : (v.width / v.camera.scale).isFinite = true
  spanX_pos : (0.0 : Float) < v.width / v.camera.scale
  /-- The span along the second axis. -/
  spanY_finite : (v.height / v.camera.scale).isFinite = true
  spanY_pos : (0.0 : Float) < v.height / v.camera.scale

instance (v : Viewport Float) : Decidable v.Regular :=
  decidable_of_iff (v.camera.x.isFinite = true ∧ v.camera.y.isFinite = true ∧
      v.width.isFinite = true ∧ (0.0 : Float) < v.width ∧
      v.height.isFinite = true ∧ (0.0 : Float) < v.height ∧
      (v.width / v.camera.scale).isFinite = true ∧ (0.0 : Float) < v.width / v.camera.scale ∧
      (v.height / v.camera.scale).isFinite = true ∧ (0.0 : Float) < v.height / v.camera.scale)
    ⟨fun ⟨x, y, w, wpos, h, hpos, sx, sxpos, sy, sypos⟩ =>
        ⟨x, y, w, wpos, h, hpos, sx, sxpos, sy, sypos⟩,
      fun ⟨x, y, w, wpos, h, hpos, sx, sxpos, sy, sypos⟩ =>
        ⟨x, y, w, wpos, h, hpos, sx, sxpos, sy, sypos⟩⟩

namespace Viewport

variable {v w : Viewport Float}

/-- Equal views have equal numbers, where zeros may differ in sign. -/
theorem beq_iff : (v == w) = true ↔
    (v.camera.x == w.camera.x) = true ∧ (v.camera.y == w.camera.y) = true ∧
      (v.camera.scale == w.camera.scale) = true ∧
      (v.width == w.width) = true ∧ (v.height == w.height) = true := by
  obtain ⟨⟨x, y, scale⟩, width, height⟩ := v
  obtain ⟨⟨x', y', scale'⟩, width', height'⟩ := w
  show (((x == x') && ((y == y') && (scale == scale'))) &&
    ((width == width') && (height == height'))) = true ↔ _
  simp only [Bool.and_eq_true, and_assoc]

/-- A finite view equals itself; one with an undefined number in it does not. -/
theorem IsFinite.beq_self (h : v.IsFinite) : (v == v) = true := by
  have hscale : (v.camera.scale == v.camera.scale) = true :=
    Double.beq_self (Double.ne_notANumber_of_div h.spanX_finite)
  exact beq_iff.mpr ⟨Double.beq_self_of_isFinite h.x_finite,
    Double.beq_self_of_isFinite h.y_finite, hscale,
    Double.beq_self_of_isFinite h.width_finite, Double.beq_self_of_isFinite h.height_finite⟩

/-- A regular view is finite. -/
theorem Regular.isFinite (h : v.Regular) : v.IsFinite :=
  ⟨h.x_finite, h.y_finite, h.width_finite, h.height_finite, h.spanX_finite, h.spanY_finite⟩

/-- So it equals itself. -/
theorem Regular.beq_self (h : v.Regular) : (v == v) = true := h.isFinite.beq_self

end Viewport

namespace Contour

/-- A contour may be used again at the same scale and size, within the tolerance in both directions.
-/
theorem isReusable_iff {α : Type} [Scalar α] {c : Contour α} {view : Viewport α} {tolerance : α} :
    c.isReusable view tolerance = true ↔
      ((c.viewport.camera.scale == view.camera.scale) = true ∧
        (c.viewport.width == view.width) = true ∧ (c.viewport.height == view.height) = true) ∧
      Scalar.abs (c.viewport.camera.x - view.camera.x) ≤
        tolerance * (view.width / view.camera.scale) ∧
      Scalar.abs (c.viewport.camera.y - view.camera.y) ≤
        tolerance * (view.height / view.camera.scale) := by
  show (_ && _ && _ && decide _ && decide _) = true ↔ _
  simp only [Bool.and_eq_true, decide_eq_true_eq, and_assoc]

variable {c : Contour Float} {view : Viewport Float} {tolerance : Float}

/-- **Whoever tolerates nothing tolerates less than anybody.** -/
theorem isReusable_of_zero (hview : view.Regular) (ht : (0.0 : Float) ≤ tolerance)
    (h : c.isReusable view 0.0 = true) : c.isReusable view tolerance = true := by
  obtain ⟨hsame, hx, hy⟩ := isReusable_iff.mp h
  obtain ⟨signX, hspanX⟩ :=
    Double.unpack_zero_mul Double.unpack_zero hview.spanX_finite
  obtain ⟨signY, hspanY⟩ :=
    Double.unpack_zero_mul Double.unpack_zero hview.spanY_finite
  exact isReusable_iff.mpr ⟨hsame,
    Double.abs_le_of_le_zero hspanX hx (Double.zero_le_mul ht hview.spanX_finite hview.spanX_pos),
    Double.abs_le_of_le_zero hspanY hy (Double.zero_le_mul ht hview.spanY_finite hview.spanY_pos)⟩

/-- A contour serves the view that it was traced under, where what is tolerated is not below
zero. -/
theorem isReusable_of_zero_le (hview : view.IsFinite) (h : (c.viewport == view) = true)
    (hspanX : (0.0 : Float) ≤ tolerance * (view.width / view.camera.scale))
    (hspanY : (0.0 : Float) ≤ tolerance * (view.height / view.camera.scale)) :
    c.isReusable view tolerance = true := by
  obtain ⟨hx, hy, hscale, hwidth, hheight⟩ := Viewport.beq_iff.mp h
  exact isReusable_iff.mpr ⟨⟨hscale, hwidth, hheight⟩,
    Double.abs_sub_le_of_beq hview.x_finite hx hspanX,
    Double.abs_sub_le_of_beq hview.y_finite hy hspanY⟩

/-- **A contour serves the view that it was traced under.** -/
theorem isReusable_of_beq (hview : view.Regular) (ht : (0.0 : Float) ≤ tolerance)
    (h : (c.viewport == view) = true) : c.isReusable view tolerance = true :=
  isReusable_of_zero_le hview.isFinite h
    (Double.zero_le_mul ht hview.spanX_finite hview.spanX_pos)
    (Double.zero_le_mul ht hview.spanY_finite hview.spanY_pos)

/-- **Under the view itself nothing has to be tolerated.** -/
theorem isReusable_self (hview : view.IsFinite) (hc : c.viewport = view) :
    c.isReusable view 0.0 = true :=
  isReusable_of_zero_le hview (hc ▸ hview.beq_self) (Double.zero_le_zero_mul hview.spanX_finite)
    (Double.zero_le_zero_mul hview.spanY_finite)

/-! ### Equal views -/

open Float.Model (Format UnpackedFloat) in
/-- No cells cover a length of zero, whatever the cells are. -/
theorem cellCount_of_isZero {length : Float} (h : Double.IsZero length.toModel.unpack)
    (cell : Float) : cellCount (2.0 * length) cell = 0 := by
  obtain ⟨s, hs⟩ := h
  have hdouble : (2.0 * length).toModel.unpack = .zero (.positive * s) := by
    show UnpackedFloat.unpack Format.binary64 (UnpackedFloat.pack Format.binary64
      (UnpackedFloat.mul Format.binary64 (2.0 : Float).toModel.unpack length.toModel.unpack)) = _
    rw [hs]
    exact Double.unpack_pack_zero _
  -- the length is doubled, and it is still zero
  let quotient : UnpackedFloat := .div Format.binary64 (2.0 * length).toModel.unpack
    cell.toModel.unpack
  have hcases : quotient = .notANumber ∨ Double.IsZero quotient := by
    unfold quotient
    -- zero divided by anything is zero, or there is no quotient
    rw [hdouble]
    cases cell.toModel.unpack with
    | notANumber | zero t => exact .inl rfl
    | infinity t | finite t m e hm => exact .inr ⟨_, rfl⟩
  show cellCount (2.0 * length) cell = 0
  unfold cellCount
  rw [show 2.0 * length / cell = Float.ofModel (.pack quotient) from rfl]
  rcases hcases with hnone | ⟨t, hzero⟩
  · -- what is undefined asks for no cells
    rw [hnone]
    decide +kernel
  · -- nor does zero, of either sign
    rw [hzero]
    cases t <;> decide +kernel

/-- A grid is worth tracing if it has columns and rows, and cells of finite size. -/
theorem isDegenerate_eq_false {g : Grid Float} : g.isDegenerate = false ↔
    (g.columns ≠ 0 ∧ g.rows ≠ 0) ∧ Scalar.isFinite g.cell = true := by
  simp [Grid.isDegenerate]

/-- Whether it is worth tracing is a matter of these three. -/
theorem isDegenerate_congr {g g' : Grid Float} (hcolumns : g.columns = g'.columns)
    (hrows : g.rows = g'.rows) (hcell : g.cell = g'.cell) : g.isDegenerate = g'.isDegenerate := by
  unfold Grid.isDegenerate
  rw [hcolumns, hrows, hcell]

/-- **A fine pass finds the same under equal views.** The zeros of their centers may differ
in sign, but then the corner of the grid lies elsewhere, or there is no grid. -/
theorem fine_of_beq {v w : Viewport Float} (hw : w.Regular) (h : (v == w) = true)
    (field : Float → Float → Float) (s : Settings Float) (cancelled : Bool) :
    fine field v s cancelled = fine field w s cancelled := by
  obtain ⟨hx, hy, hscale, hwidth, hheight⟩ := Viewport.beq_iff.mp h
  have hscale := Double.unpack_eq_of_beq hscale (Double.not_isZero_of_div hw.spanX_finite)
  have hwidth := Double.unpack_eq_of_beq hwidth (Double.not_isZero_of_pos hw.width_pos)
  have hheight := Double.unpack_eq_of_beq hheight (Double.not_isZero_of_pos hw.height_pos)
  let halfWidth : Float := w.width / w.camera.scale / 2.0 * s.fineRegion
  let halfHeight : Float := w.height / w.camera.scale / 2.0 * s.fineRegion
  let cell : Float := s.fineCell / w.camera.scale
  let gridFrom (x y : Float) : Grid Float := ⟨x - halfWidth, y + halfHeight, cell,
    cellCount (2.0 * halfWidth) cell, cellCount (2.0 * halfHeight) cell⟩
  -- all but the center is the same, bit by bit
  have hv : outerGrid v s = gridFrom v.camera.x v.camera.y := by
    have hspanX := Double.div_of_unpack hwidth hscale
    have hspanY := Double.div_of_unpack hheight hscale
    have hcell : s.fineCell / v.camera.scale = cell := Double.div_of_unpack rfl hscale
    unfold outerGrid Viewport.scale
    rw [hspanX, hspanY, hcell]
  have hw : outerGrid w s = gridFrom w.camera.x w.camera.y := rfl
  -- a corner that is moved by nothing is that of a grid without cells
  have hsame : (gridFrom w.camera.x w.camera.y).isDegenerate = false →
      gridFrom v.camera.x v.camera.y = gridFrom w.camera.x w.camera.y := by
    intro hcells
    obtain ⟨⟨hcolumns, hrows⟩, -⟩ := isDegenerate_eq_false.mp hcells
    have hmovesX : ¬Double.IsZero halfWidth.toModel.unpack := fun hzero =>
      hcolumns (cellCount_of_isZero hzero cell)
    have hmovesY : ¬Double.IsZero halfHeight.toModel.unpack := fun hzero =>
      hrows (cellCount_of_isZero hzero cell)
    unfold gridFrom
    rw [(Double.move_of_beq hx hmovesX).1, (Double.move_of_beq hy hmovesY).2]
  have hdegenerate : (gridFrom v.camera.x v.camera.y).isDegenerate =
      (gridFrom w.camera.x w.camera.y).isDegenerate := isDegenerate_congr rfl rfl rfl
  unfold fine
  dsimp only
  rw [hv, hw, hdegenerate]
  split
  · -- there is nothing to trace
    exact Eq.refl (some [])
  · next hcells => rw [hsame (Bool.eq_false_iff.mpr hcells)]

end Contour

end CurvePlot
