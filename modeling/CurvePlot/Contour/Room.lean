import CurvePlot.Contour
/-!
# Room for lattices

The values of a lattice are kept in one array, and not every array can be had: it has fewer than
`2 ^ 63` bytes, and a value takes eight of them. A pass that comes to a lattice which is greater
than that fails, and leaves nothing. It is the same where the vertices are more than a word of 64
bits can count: a machine that goes on with what is left of their number has an array that ends
before the lattice does.

* `Contour.coarse?` and `Contour.fine?` are the two passes with this limit.
* `Contour.coarseFails` and `Contour.fineFails` say whether they fail, and take little time to find
  out.
-/

namespace CurvePlot

namespace Lattice

/-- How many vertices a lattice of so many cells has. -/
def vertexCount (columns rows : Nat) : Nat := (columns + 1) * (rows + 1)

/-- The number of values that is too great for an array: `2 ^ 60`. -/
def capacity : Nat := 0x1000000000000000

/-- Whether there is room for the values of a lattice of so many cells. -/
def hasRoom (columns rows : Nat) : Bool := vertexCount columns rows < capacity

variable {α : Type} [Scalar α]

/-- The lattice of a field over a grid, if there is room for it. -/
def evaluate? (field : α → α → α) (minX maxY dx dy : α) (columns rows : Nat) :
    Option (Lattice α) :=
  if hasRoom columns rows then some (evaluate field minX maxY dx dy columns rows) else none

end Lattice

namespace Contour

variable {α : Type} [Scalar α]

namespace Grid

/-- Whether a lattice over the grid is asked for, and there is no room for it. -/
def overflows (g : Grid α) : Bool := !g.isDegenerate && !Lattice.hasRoom g.columns g.rows

/-- The lattice of a field over the grid, if there is room for it. -/
def lattice? (g : Grid α) (field : α → α → α) : Option (Lattice α) :=
  Lattice.evaluate? field g.minX g.maxY g.cell g.cell g.columns g.rows

end Grid

/-- Whether the coarse pass fails. -/
def coarseFails (view : Viewport α) (s : Settings α) : Bool := (coarseGrid view s).overflows

/-- **The coarse pass,** none if it fails. -/
def coarse? (field : α → α → α) (view : Viewport α) (s : Settings α) :
    Option (List (Segment α)) :=
  let grid := coarseGrid view s
  if grid.isDegenerate then some [] else (grid.lattice? field).map Lattice.segments

/-- Into how many parts the fine pass cuts the edge of an outer cell. -/
def parts (s : Settings α) : Nat := max s.fineSubdivisions 1

/-- Whether the fine pass fails: there is no room for its outer lattice, or none for that of a cell
which the curve may cross. A cancelled pass does not come to the cells. -/
def fineFails (field : α → α → α) (view : Viewport α) (s : Settings α) (cancelled : Bool) : Bool :=
  let grid := outerGrid view s
  grid.overflows || !grid.isDegenerate && !cancelled && !Lattice.hasRoom (parts s) (parts s) &&
    -- the outer lattice is evaluated only where all depends on it
    let outer := grid.lattice field
    outer.cells.any fun (i, j) => outer.straddles i j

/-- The segments inside one outer cell, if there is room for its lattice. -/
def refineCell? (field : α → α → α) (outer : Lattice α) (cell : α) (parts : Nat) (i j : Nat) :
    Option (List (Segment α)) :=
  (Lattice.evaluate? field (outer.x i) (outer.y j) cell cell parts parts).map Lattice.segments

/-- The segments inside all outer cells that the curve may cross, if there is room for the lattices
of all of them. -/
def refine? (field : α → α → α) (outer : Lattice α) (cell : α) (parts : Nat) :
    Option (List (Segment α)) :=
  let crossed := outer.cells.filter fun (i, j) => outer.straddles i j
  (crossed.mapM fun (i, j) => refineCell? field outer cell parts i j).map List.flatten

/-- **The fine pass,** none if it fails. Otherwise what it leaves, which is nothing if it was
cancelled. -/
def fine? (field : α → α → α) (view : Viewport α) (s : Settings α) (cancelled : Bool) :
    Option (Option (List (Segment α))) :=
  let grid := outerGrid view s
  if grid.isDegenerate then some (some [])
  else
    match grid.lattice? field with
    | none => none
    | some outer =>
      if cancelled then some none
      else (refine? field outer (grid.cell / Scalar.ofNat (parts s)) (parts s)).map some

end Contour

end CurvePlot
