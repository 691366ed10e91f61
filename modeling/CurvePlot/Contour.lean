import CurvePlot.Contour.Lattice
import CurvePlot.Settings
import CurvePlot.Viewport
/-!
# Contours

An implicit curve is traced in two ways: `Contour.coarse` marches over the visible
region in large cells, and `Contour.fine` marches in small cells over a region
somewhat larger, but only inside those large cells that the curve may cross.

A traced contour remembers the view it was traced under; `Contour.isReusable`
says whether it still serves another.
-/

namespace CurvePlot

/-- How a contour was traced. -/
inductive Quality where
  | preview
  | fine
deriving Repr, DecidableEq

/-- The segments of a curve, with the view they were traced under. -/
structure Contour (α : Type) where
  segments : List (Segment α)
  /-- The view at the time. -/
  viewport : Viewport α
  quality : Quality
deriving Repr

namespace Contour

variable {α : Type} [Scalar α]

def isFine (c : Contour α) : Bool := c.quality = .fine

/-- Whether the contour still serves a view: scale and surface are the same, and
the center has moved no further than a part of the visible span along each axis. -/
@[specialize]
def isReusable (c : Contour α) (view : Viewport α) (tolerance : α) : Bool :=
  let old := c.viewport.camera
  let new := view.camera
  let spanX := view.width / new.scale
  let spanY := view.height / new.scale
  old.scale == new.scale && c.viewport.width == view.width && c.viewport.height == view.height
    && decide (Scalar.abs (old.x - new.x) ≤ tolerance * spanX)
    && decide (Scalar.abs (old.y - new.y) ≤ tolerance * spanY)

/-- How many cells cover a length. -/
@[specialize]
def cellCount (length cell : α) : Nat :=
  let count := Scalar.ceil (length / cell)
  if Scalar.isFinite count && decide ((0.0 : α) < count) then Scalar.toNat count else 0

/-- A grid of square cells over part of the plane. -/
structure Grid (α : Type) where
  minX : α
  maxY : α
  cell : α
  columns : Nat
  rows : Nat

namespace Grid

/-- Whether the grid has no cells that could be traced. -/
@[specialize]
def isDegenerate (g : Grid α) : Bool :=
  g.columns == 0 || g.rows == 0 || !Scalar.isFinite g.cell

/-- The lattice of a field over the grid. -/
@[specialize]
def lattice (g : Grid α) (field : α → α → α) : Lattice α :=
  .evaluate field g.minX g.maxY g.cell g.cell g.columns g.rows

end Grid

/-- The grid of the coarse pass: the visible region. -/
@[specialize]
def coarseGrid (view : Viewport α) (s : Settings α) : Grid α where
  minX := view.rangeX.1
  maxY := view.rangeY.2
  cell := s.coarseCell / view.scale
  columns := cellCount view.width s.coarseCell
  rows := cellCount view.height s.coarseCell

/-- **The coarse pass:** the segments of a field's zero set in the visible region. -/
@[specialize]
def coarse (field : α → α → α) (view : Viewport α) (s : Settings α) : List (Segment α) :=
  let grid := coarseGrid view s
  if grid.isDegenerate then [] else (grid.lattice field).segments

/-- The outer grid of the fine pass: the visible region, enlarged about its
center. -/
@[specialize]
def outerGrid (view : Viewport α) (s : Settings α) : Grid α :=
  let halfWidth := view.width / view.scale / 2.0 * s.fineRegion
  let halfHeight := view.height / view.scale / 2.0 * s.fineRegion
  let cell := s.fineCell / view.scale
  { minX := view.camera.x - halfWidth
    maxY := view.camera.y + halfHeight
    cell := cell
    columns := cellCount (2.0 * halfWidth) cell
    rows := cellCount (2.0 * halfHeight) cell }

/-- The segments inside one outer cell, from a lattice of `parts` by `parts` cells
of its own. -/
@[specialize]
def refineCell (field : α → α → α) (outer : Lattice α) (cell : α) (parts : Nat)
    (i j : Nat) : List (Segment α) :=
  (Lattice.evaluate field (outer.x i) (outer.y j) cell cell parts parts).segments

/-- The segments inside all outer cells that the curve may cross. -/
@[specialize]
def refine (field : α → α → α) (grid : Grid α) (subdivisions : Nat) : List (Segment α) :=
  let outer := grid.lattice field
  -- no cell can be cut into no parts
  let parts := max subdivisions 1
  let cell := grid.cell / Scalar.ofNat parts
  (outer.cells.filter fun (i, j) => outer.straddles i j).flatMap fun (i, j) =>
    refineCell field outer cell parts i j

/-- **The fine pass:** the segments of a field's zero set, traced in small cells
where the curve may be. A pass that was cancelled has no result, unless there was
nothing to trace. -/
@[specialize]
def fine (field : α → α → α) (view : Viewport α) (s : Settings α) (cancelled : Bool) :
    Option (List (Segment α)) :=
  let grid := outerGrid view s
  if grid.isDegenerate then some []
  else if cancelled then none
  else some (refine field grid s.fineSubdivisions)

end Contour

end CurvePlot
