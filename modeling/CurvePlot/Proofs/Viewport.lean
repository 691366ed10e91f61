import CurvePlot.Proofs.Exact
import CurvePlot.Viewport
/-!
# Views that move

A view takes pixels to points of the plane and points to pixels. Over exact numbers the two are
inverse to each other, whatever was done to the view before (`run_exact`): all there is to it is
that the scale is a number other than zero, and the scale is put back into its range whenever it
changes (`exists_clampScale`).

A view may be zoomed about a pixel beyond the end of that range. The point under the pixel stays
even then, since the new center is reckoned with the scale that came out and not with the one that
was asked for (`exists_zoomAt`). The second axis points up and pixels count down, so what is dragged
down moves the center up.
-/

namespace CurvePlot

/-- **A scale that was clamped** is in the range of scales. -/
theorem Camera.exists_clampScale (scale : Exact) :
    ∃ k : ℝ, clampScale scale = .number k ∧ 1 / 100 ≤ k ∧ k ≤ 100000 := by
  -- the bounds as numbers
  have hleast : (leastScale : Exact) = .number (1 / 100) := by
    rw [leastScale, Exact.ofScientific_eq]
    norm_num
  have hgreatest : (greatestScale : Exact) = .number 100000 := by
    rw [greatestScale, Exact.ofScientific_eq]
    norm_num
  unfold clampScale
  rw [hleast, hgreatest]
  cases scale with
  -- what is undefined becomes the least scale, and a number is cut off at both ends
  | undefined => exact ⟨1 / 100, rfl, le_rfl, by norm_num⟩
  | number r =>
    have hdefined : Scalar.isUndefined (Exact.number r) = false := rfl
    rw [hdefined, if_neg Bool.false_ne_true]
    by_cases hlow : r < 1 / 100
    · exact ⟨1 / 100, if_pos (Exact.number_lt.mpr hlow), le_rfl, by norm_num⟩
    · rw [if_neg (Exact.number_lt.not.mpr hlow)]
      by_cases hhigh : 100000 < r
      · exact ⟨100000, if_pos (Exact.number_lt.mpr hhigh), by norm_num, le_rfl⟩
      · exact ⟨r, if_neg (Exact.number_lt.not.mpr hhigh), not_lt.mp hlow, not_lt.mp hhigh⟩

namespace Viewport

/-- The view with these numbers. -/
def ofNumbers (a b k w h : ℝ) : Viewport Exact :=
  ⟨⟨.number a, .number b, .number k⟩, .number w, .number h⟩

section

variable {a b k w h : ℝ}

/-! ### Pixels and points -/

/-- Half the visible span, as a number. -/
theorem half_eq (hk : k ≠ 0) (length : ℝ) :
    Exact.number length / 2.0 / Exact.number k = Exact.number (length / k / 2) := by
  rw [Exact.two_literal, Exact.number_div _ _ two_ne_zero, Exact.number_div _ _ hk, div_right_comm]

/-- The point under a pixel, as numbers. -/
theorem toPlane_ofNumbers (hk : k ≠ 0) (px py : ℝ) :
    (ofNumbers a b k w h).toPlane (.number px) (.number py) =
      (.number (a + (px - w / 2) / k), .number (b + (h / 2 - py) / k)) := by
  simp only [toPlane, ofNumbers, Exact.two_literal, Exact.number_div _ _ (two_ne_zero (α := ℝ)),
    Exact.number_sub, Exact.number_div _ _ hk, Exact.number_add]

/-- The pixel of a point, as numbers. -/
theorem toPixel_ofNumbers (x y : ℝ) :
    (ofNumbers a b k w h).toPixel (.number x) (.number y) =
      (.number ((x - a) * k + w / 2), .number ((b - y) * k + h / 2)) := by
  simp only [toPixel, ofNumbers, Exact.two_literal, Exact.number_div _ _ (two_ne_zero (α := ℝ)),
    Exact.number_sub]
  rfl

/-! ### Moving -/

/-- Dragging moves the center against the drag. -/
theorem pan_ofNumbers (hk : k ≠ 0) (dx dy : ℝ) :
    (ofNumbers a b k w h).pan (.number dx) (.number dy) =
      ofNumbers (a - dx / k) (b + dy / k) k w h := by
  simp only [pan, ofNumbers, Exact.number_div _ _ hk, Exact.number_sub, Exact.number_add]

/-- **The view zoomed about a pixel** has a new center, reckoned with the scale that came out. -/
theorem exists_zoomAt (hk : k ≠ 0) (px py : ℝ) (inward : Bool) (factor : Exact) :
    ∃ k' : ℝ, 1 / 100 ≤ k' ∧ k' ≤ 100000 ∧
      (ofNumbers a b k w h).zoomAt (.number px) (.number py) inward factor =
        ofNumbers (a + (px - w / 2) / k - (px - w / 2) / k')
          (b + (h / 2 - py) / k - (h / 2 - py) / k') k' w h := by
  obtain ⟨k', hscale, hleast, hgreatest⟩ :=
    Camera.exists_clampScale ((ofNumbers a b k w h).zoomedScale inward factor)
  have hk' : k' ≠ 0 := by linarith
  refine ⟨k', hleast, hgreatest, ?_⟩
  rw [zoomAt, toPlane_ofNumbers hk]
  simp only [Camera.rescale, hscale]
  simp only [ofNumbers, Exact.two_literal, Exact.number_div _ _ (two_ne_zero (α := ℝ)),
    Exact.number_sub, Exact.number_div _ _ hk']

/-! ### What stays exact -/

/-- Pixels are taken to points and back, -/
theorem toPixel_toPlane (hk : k ≠ 0) (px py : ℝ) :
    let q := (ofNumbers a b k w h).toPlane (.number px) (.number py)
    (ofNumbers a b k w h).toPixel q.1 q.2 = (.number px, .number py) := by
  rw [toPlane_ofNumbers hk]
  dsimp only
  rw [toPixel_ofNumbers, add_sub_cancel_left, div_mul_cancel₀ _ hk, sub_add_cancel,
    sub_add_cancel_left, neg_mul, div_mul_cancel₀ _ hk, neg_sub, sub_add_cancel]

/-- and points to pixels and back. -/
theorem toPlane_toPixel (hk : k ≠ 0) (x y : ℝ) :
    let p := (ofNumbers a b k w h).toPixel (.number x) (.number y)
    (ofNumbers a b k w h).toPlane p.1 p.2 = (.number x, .number y) := by
  rw [toPixel_ofNumbers]
  dsimp only
  rw [toPlane_ofNumbers hk, add_sub_cancel_right, mul_div_cancel_right₀ _ hk, add_sub_cancel,
    sub_add_cancel_right, neg_div, mul_div_cancel_right₀ _ hk, neg_sub, add_sub_cancel]

/-- **The point under the pixel stays,** whatever scale comes out. -/
theorem toPlane_zoomAt (hk : k ≠ 0) (px py : ℝ) (inward : Bool) (factor : Exact) :
    ((ofNumbers a b k w h).zoomAt (.number px) (.number py) inward factor).toPlane
      (.number px) (.number py) = (ofNumbers a b k w h).toPlane (.number px) (.number py) := by
  obtain ⟨k', hleast, -, hzoomed⟩ := exists_zoomAt hk px py inward factor
  have hk' : k' ≠ 0 := by linarith
  rw [hzoomed, toPlane_ofNumbers hk', toPlane_ofNumbers hk, sub_add_cancel, sub_add_cancel]

/-- Points move along with the plane, downwards as the pixels count. -/
theorem toPixel_pan (hk : k ≠ 0) (dx dy x y : ℝ) :
    let p := (ofNumbers a b k w h).toPixel (.number x) (.number y)
    ((ofNumbers a b k w h).pan (.number dx) (.number dy)).toPixel (.number x) (.number y) =
      (p.1 + .number dx, p.2 + .number dy) := by
  have hx : (x - (a - dx / k)) * k + w / 2 = (x - a) * k + w / 2 + dx := by
    field_simp
    ring
  have hy : (b + dy / k - y) * k + h / 2 = (b - y) * k + h / 2 + dy := by
    field_simp
    ring
  rw [pan_ofNumbers hk, toPixel_ofNumbers, toPixel_ofNumbers, hx, hy]
  rfl

/-- What is visible reaches from the left edge to the right one. -/
theorem rangeX_eq (hk : k ≠ 0) (py : ℝ) : (ofNumbers a b k w h).rangeX =
    (((ofNumbers a b k w h).toPlane (.number 0) (.number py)).1,
      ((ofNumbers a b k w h).toPlane (.number w) (.number py)).1) := by
  have hleft : a + (0 - w / 2) / k = a - w / k / 2 := by ring
  have hright : a + (w - w / 2) / k = a + w / k / 2 := by ring
  rw [toPlane_ofNumbers hk, toPlane_ofNumbers hk, hleft, hright]
  simp only [rangeX, ofNumbers, half_eq hk, Exact.number_sub, Exact.number_add]

/-- And from the lower edge, where the pixels end, to the upper one. -/
theorem rangeY_eq (hk : k ≠ 0) (px : ℝ) : (ofNumbers a b k w h).rangeY =
    (((ofNumbers a b k w h).toPlane (.number px) (.number h)).2,
      ((ofNumbers a b k w h).toPlane (.number px) (.number 0)).2) := by
  have hlower : b + (h / 2 - h) / k = b - h / k / 2 := by ring
  have hupper : b + (h / 2 - 0) / k = b + h / k / 2 := by ring
  rw [toPlane_ofNumbers hk, toPlane_ofNumbers hk, hlower, hupper]
  simp only [rangeY, ofNumbers, half_eq hk, Exact.number_sub, Exact.number_add]

end

/-! ### Runs -/

/-- Something that is done to a view. -/
inductive Motion where
  /-- The plane is dragged by some pixels. -/
  | pan (dx dy : ℝ)
  /-- The view is zoomed about a pixel. -/
  | zoomAt (px py : ℝ) (inward : Bool) (factor : ℝ)
  /-- The view is zoomed about its center. -/
  | zoom (inward : Bool) (factor : ℝ)
  /-- The view is put back to the origin. -/
  | reset (scale : ℝ)
  /-- The view is made to look at a point. -/
  | look (x y scale : ℝ)
  /-- The surface gets another size. -/
  | resize (width height : ℝ)

/-- The view after a motion. -/
noncomputable def move (v : Viewport Exact) : Motion → Viewport Exact
  | .pan dx dy => v.pan (.number dx) (.number dy)
  | .zoomAt px py inward factor => v.zoomAt (.number px) (.number py) inward (.number factor)
  | .zoom inward factor => v.zoom inward (.number factor)
  | .reset scale => v.reset (.number scale)
  | .look x y scale => v.look (.lookingAt (.number x) (.number y) (.number scale))
  | .resize width height => v.resize (.number width) (.number height)

/-- The view after a row of motions. -/
noncomputable def run (v : Viewport Exact) (motions : List Motion) : Viewport Exact :=
  motions.foldl move v

/-- **The view has numbers for everything,** and its scale is in the range of scales. -/
inductive Allowed : Viewport Exact → Prop where
  | ofNumbers (a b w h : ℝ) {k : ℝ} (least : 1 / 100 ≤ k) (greatest : k ≤ 100000) :
    Allowed (.ofNumbers a b k w h)

namespace Allowed

/-- A camera that is made to look at a point has an allowed scale. -/
theorem lookingAt (x y w h : ℝ) (scale : Exact) :
    Allowed ⟨.lookingAt (.number x) (.number y) scale, .number w, .number h⟩ := by
  obtain ⟨k, hscale, hleast, hgreatest⟩ := Camera.exists_clampScale scale
  rw [Camera.lookingAt, hscale]
  exact .ofNumbers x y w h hleast hgreatest

/-- A centered view is allowed. -/
theorem centered (w h k : ℝ) : Allowed (centered (.number w) (.number h) (.number k)) := by
  rw [Viewport.centered, Exact.zero_literal]
  exact lookingAt 0 0 w h _

/-- **No motion leaves the range of scales.** -/
theorem move {v : Viewport Exact} (hv : Allowed v) (m : Motion) : Allowed (v.move m) := by
  obtain ⟨a, b, w, h, hleast, hgreatest⟩ := hv
  next k =>
  have hk : k ≠ 0 := by linarith
  -- only zooming about a pixel needs a new center; the others set a camera or leave the scale alone
  cases m with
  | pan dx dy =>
    rw [Viewport.move, pan_ofNumbers hk]
    exact .ofNumbers _ _ w h hleast hgreatest
  | zoomAt px py inward factor =>
    obtain ⟨k', hleast', hgreatest', hzoomed⟩ := exists_zoomAt hk px py inward (.number factor)
    rw [Viewport.move, hzoomed]
    exact .ofNumbers _ _ w h hleast' hgreatest'
  | zoom inward factor => exact lookingAt a b w h _
  | reset scale =>
    rw [Viewport.move, reset, Exact.zero_literal]
    exact lookingAt 0 0 w h _
  | look x y scale => exact lookingAt x y w h _
  | resize width height => exact .ofNumbers a b width height hleast hgreatest

/-- What is allowed stays allowed in every row of motions. -/
theorem run {v : Viewport Exact} (hv : Allowed v) (motions : List Motion) :
    Allowed (v.run motions) := by
  induction motions generalizing v with
  | nil => exact hv
  | cons m motions ih => exact ih (hv.move m)

end Allowed

/-- **Views stay exact, whatever is done to them.** The scale stays in its range. Pixels and points
go over into each other and back. Zooming about a pixel keeps the point under it, also where the
scale that was asked for is not allowed. Dragging moves every point by the very number of pixels.
And the least and greatest visible coordinates are those of the edges of the surface. -/
theorem run_exact (width height scale : ℝ) (motions : List Motion) :
    let v := (centered (.number width) (.number height) (.number scale)).run motions
    (∃ k : ℝ, v.scale = .number k ∧ 1 / 100 ≤ k ∧ k ≤ 100000) ∧
    (∀ px py : ℝ, let q := v.toPlane (.number px) (.number py)
      v.toPixel q.1 q.2 = (.number px, .number py)) ∧
    (∀ x y : ℝ, let p := v.toPixel (.number x) (.number y)
      v.toPlane p.1 p.2 = (.number x, .number y)) ∧
    (∀ (px py factor : ℝ) (inward : Bool),
      (v.zoomAt (.number px) (.number py) inward (.number factor)).toPlane
        (.number px) (.number py) = v.toPlane (.number px) (.number py)) ∧
    (∀ dx dy x y : ℝ, let p := v.toPixel (.number x) (.number y)
      (v.pan (.number dx) (.number dy)).toPixel (.number x) (.number y) =
        (p.1 + .number dx, p.2 + .number dy)) ∧
    ∀ px py : ℝ,
      v.rangeX = ((v.toPlane (.number 0) (.number py)).1, (v.toPlane v.width (.number py)).1) ∧
      v.rangeY = ((v.toPlane (.number px) v.height).2, (v.toPlane (.number px) (.number 0)).2) := by
  intro v
  -- all that is known of the view is that it is allowed
  have hv : Allowed v := (Allowed.centered width height scale).run motions
  clear_value v
  obtain ⟨a, b, w, h, hleast, hgreatest⟩ := hv
  next k =>
  have hk : k ≠ 0 := by linarith
  refine ⟨⟨k, rfl, hleast, hgreatest⟩, fun px py => ?_, fun x y => ?_,
    fun px py factor inward => ?_, fun dx dy x y => ?_, fun px py => ⟨?_, ?_⟩⟩
  · exact toPixel_toPlane hk px py
  · exact toPlane_toPixel hk x y
  · exact toPlane_zoomAt hk px py inward (.number factor)
  · exact toPixel_pan hk dx dy x y
  · exact rangeX_eq hk py
  · exact rangeY_eq hk px

end Viewport

end CurvePlot
