import CurvePlot.Scalar
/-!
# Views of the plane

A camera looks at a point of the plane with a number of pixels for each unit, and
a viewport is a camera with a surface of some width and height in pixels. Pixels
count from the upper left corner down, so the second axis is turned over.

The scale of a camera made by `Camera.lookingAt` or changed by `Camera.rescale` lies
between `leastScale` and `greatestScale`.
-/

namespace CurvePlot

/-- Where a view looks, and how many pixels it has for a unit. -/
structure Camera (α : Type) where
  x : α
  y : α
  /-- Pixels for a unit. -/
  scale : α
deriving Repr, BEq

/-- A camera and the surface it draws on. -/
structure Viewport (α : Type) where
  camera : Camera α
  width : α
  height : α
deriving Repr, BEq

variable {α : Type} [Scalar α]

namespace Camera

def leastScale : α := 1e-2

def greatestScale : α := 1e5

/-- The nearest scale that is allowed; the least for an undefined one. -/
def clampScale (scale : α) : α :=
  if Scalar.isUndefined scale then leastScale
  else if scale < leastScale then leastScale
  else if greatestScale < scale then greatestScale
  else scale

/-- The camera at a point, with the allowed scale that is nearest. -/
def lookingAt (x y scale : α) : Camera α := ⟨x, y, clampScale scale⟩

/-- The camera at the same point with another scale. -/
def rescale (c : Camera α) (scale : α) : Camera α := { c with scale := clampScale scale }

end Camera

namespace Viewport

/-- The view of the origin. -/
def centered (width height scale : α) : Viewport α := ⟨.lookingAt 0.0 0.0 scale, width, height⟩

def scale (v : Viewport α) : α := v.camera.scale

/-- The point of the plane under a pixel. -/
def toPlane (v : Viewport α) (px py : α) : α × α :=
  (v.camera.x + (px - v.width / 2.0) / v.camera.scale,
   v.camera.y + (v.height / 2.0 - py) / v.camera.scale)

/-- The pixel over a point of the plane. -/
def toPixel (v : Viewport α) (x y : α) : α × α :=
  (Scalar.fma (x - v.camera.x) v.camera.scale (v.width / 2.0),
   Scalar.fma (v.camera.y - y) v.camera.scale (v.height / 2.0))

/-- The least and greatest visible `x`. -/
def rangeX (v : Viewport α) : α × α :=
  let half := v.width / 2.0 / v.camera.scale
  (v.camera.x - half, v.camera.x + half)

/-- The least and greatest visible `y`. -/
def rangeY (v : Viewport α) : α × α :=
  let half := v.height / 2.0 / v.camera.scale
  (v.camera.y - half, v.camera.y + half)

/-- The view after the plane was dragged by a number of pixels. -/
def pan (v : Viewport α) (dx dy : α) : Viewport α :=
  { v with camera := ⟨v.camera.x - dx / v.camera.scale, v.camera.y + dy / v.camera.scale,
    v.camera.scale⟩ }

/-- The scale after a step of zooming in or out. -/
def zoomedScale (v : Viewport α) (inward : Bool) (factor : α) : α :=
  if inward then v.camera.scale * factor else v.camera.scale / factor

/-- The view zoomed about a pixel, under which the same point stays. -/
def zoomAt (v : Viewport α) (px py : α) (inward : Bool) (factor : α) : Viewport α :=
  let (x, y) := v.toPlane px py
  -- the scale may have been clamped, so the center follows from the scale that came out
  let camera := v.camera.rescale (v.zoomedScale inward factor)
  { v with camera := ⟨x - (px - v.width / 2.0) / camera.scale,
    y - (v.height / 2.0 - py) / camera.scale, camera.scale⟩ }

/-- The view zoomed about its center. -/
def zoom (v : Viewport α) (inward : Bool) (factor : α) : Viewport α :=
  { v with camera := v.camera.rescale (v.zoomedScale inward factor) }

/-- The view of the origin on the same surface. -/
def reset (v : Viewport α) (scale : α) : Viewport α := { v with camera := .lookingAt 0.0 0.0 scale }

/-- The view by another camera on the same surface. -/
def look (v : Viewport α) (camera : Camera α) : Viewport α := { v with camera := camera }

/-- The same view on a surface of another size. -/
def resize (v : Viewport α) (width height : α) : Viewport α :=
  { v with width := width, height := height }

/-- The distances of major and minor grid lines. Major lines are one, two or five
times a power of ten apart, as near to a hundred pixels as that allows from
below; five minor ones go into each. -/
def gridSteps (scale : α) : α × α :=
  let raw := (100.0 : α) / scale
  let power := Scalar.pow (10.0 : α) (Scalar.floor (Scalar.apply .log raw))
  -- between one and ten, up to rounding
  let fraction := raw / power
  let major :=
    if fraction < (2.0 : α) then power
    else if fraction < (5.0 : α) then (2.0 : α) * power
    else (5.0 : α) * power
  (major, major / 5.0)

end Viewport

end CurvePlot
