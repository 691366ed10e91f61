import CurvePlot.Contour.Segment
import CurvePlot.Scalar
/-!
# Marching squares

A lattice holds the values of a field at the vertices of a rectangular grid. Each
cell whose vertices all have values is crossed by the zero set along the edges
whose two ends differ in sign; `joins` says which of these edges are joined by a
segment. Where an edge is crossed depends on its two ends alone, taken from left
to right or from top to bottom, so the two cells beside it agree.
-/

namespace CurvePlot

/-- An edge of a cell. -/
inductive Edge where
  | top | right | bottom | left
deriving Repr, DecidableEq

namespace Edge

/-- The ends of an edge of the cell `(i, j)`, the left or upper one first. -/
def ends (i j : Nat) : Edge → (Nat × Nat) × (Nat × Nat)
  | top => ((i, j), (i + 1, j))
  | right => ((i + 1, j), (i + 1, j + 1))
  | bottom => ((i, j + 1), (i + 1, j + 1))
  | left => ((i, j), (i, j + 1))

/-- **The edges that are joined** in a cell, by which of its corners are positive:
upper left, upper right, lower right, lower left. Where only two corners across
from each other are positive, each of them is cut off by itself. -/
def joins : Bool → Bool → Bool → Bool → List (Edge × Edge)
  | false, false, false, false => []
  | false, false, false, true => [(left, bottom)]
  | false, false, true, false => [(bottom, right)]
  | false, false, true, true => [(left, right)]
  | false, true, false, false => [(top, right)]
  | false, true, false, true => [(left, bottom), (top, right)]
  | false, true, true, false => [(top, bottom)]
  | false, true, true, true => [(left, top)]
  | true, false, false, false => [(left, top)]
  | true, false, false, true => [(top, bottom)]
  | true, false, true, false => [(left, top), (bottom, right)]
  | true, false, true, true => [(top, right)]
  | true, true, false, false => [(left, right)]
  | true, true, false, true => [(bottom, right)]
  | true, true, true, false => [(left, bottom)]
  | true, true, true, true => []

end Edge

/-- The values of a field on a grid, row by row from the top. -/
structure Lattice (α : Type) where
  minX : α
  maxY : α
  dx : α
  dy : α
  columns : Nat
  rows : Nat
  values : Array α
deriving Repr

namespace Lattice

variable {α : Type} [Scalar α]

/-- The place of the `i`th column of vertices. -/
@[specialize]
def placeX (minX dx : α) (i : Nat) : α := Scalar.fma (Scalar.ofNat i) dx minX

/-- The place of the `j`th row of vertices. -/
@[specialize]
def placeY (maxY dy : α) (j : Nat) : α := Scalar.fma (Scalar.ofNat j) (-dy) maxY

/-- The lattice of a field over a grid. -/
@[specialize]
def evaluate (field : α → α → α) (minX maxY dx dy : α) (columns rows : Nat) : Lattice α :=
  let xs := (Array.range (columns + 1)).map (placeX minX dx)
  let values := (Array.range (rows + 1)).flatMap fun j =>
    let y := placeY maxY dy j
    xs.map fun x => field x y
  ⟨minX, maxY, dx, dy, columns, rows, values⟩

/-- The first coordinate of the vertices of column `i`. -/
@[specialize]
def x (l : Lattice α) (i : Nat) : α := placeX l.minX l.dx i

/-- The second coordinate of the vertices of row `j`. -/
@[specialize]
def y (l : Lattice α) (j : Nat) : α := placeY l.maxY l.dy j

/-- The value at the vertex in column `i` and row `j`. -/
@[specialize]
def value (l : Lattice α) (i j : Nat) : α :=
  (l.values[j * (l.columns + 1) + i]?).getD Scalar.undefined

/-- How far from the first of two vertices, as a part of the way, the field
crosses zero between their values. -/
@[specialize]
def crossingPart (a b : α) : α :=
  -- the middle serves where both are zero or their sum is too great
  let sum := Scalar.abs a + Scalar.abs b
  if Scalar.isFinite sum && !(sum == (0.0 : α)) then Scalar.abs a / sum else 0.5

/-- Where an edge with the given ends is crossed. -/
@[specialize]
def crossing (l : Lattice α) (a b : Nat × Nat) : α × α :=
  let t := crossingPart (l.value a.1 a.2) (l.value b.1 b.2)
  let (ax, ay) := (l.x a.1, l.y a.2)
  (Scalar.fma t (l.x b.1 - ax) ax, Scalar.fma t (l.y b.2 - ay) ay)

/-- Where an edge of the cell `(i, j)` is crossed. -/
@[specialize]
def crossingOn (l : Lattice α) (i j : Nat) (e : Edge) : α × α :=
  let (a, b) := e.ends i j
  l.crossing a b

/-- Whether a value counts as inside. -/
@[specialize]
def isPositive (v : α) : Bool := (0.0 : α) < v

/-- The values at the corners of a cell: upper left, upper right, lower right,
lower left. -/
@[specialize]
def corners (l : Lattice α) (i j : Nat) : List α :=
  [l.value i j, l.value (i + 1) j, l.value (i + 1) (j + 1), l.value i (j + 1)]

/-- The edges of a cell that are joined, none if a corner has no value. -/
@[specialize]
def joinsAt (l : Lattice α) (i j : Nat) : List (Edge × Edge) :=
  match l.corners i j with
  | [tl, tr, br, bl] =>
    if Scalar.isUndefined tl || Scalar.isUndefined tr || Scalar.isUndefined br
        || Scalar.isUndefined bl then []
    else Edge.joins (isPositive tl) (isPositive tr) (isPositive br) (isPositive bl)
  | _ => []

/-- The segments in the cell `(i, j)`. -/
@[specialize]
def march (l : Lattice α) (i j : Nat) : List (Segment α) :=
  (l.joinsAt i j).map fun (a, b) =>
    let (x1, y1) := l.crossingOn i j a
    let (x2, y2) := l.crossingOn i j b
    ⟨x1, y1, x2, y2⟩

/-- The cells, row by row from the top. -/
def cells (l : Lattice α) : List (Nat × Nat) :=
  (List.range l.rows).flatMap fun j => (List.range l.columns).map fun i => (i, j)

omit [Scalar α] in
theorem mem_cells {l : Lattice α} {i j : Nat} : (i, j) ∈ l.cells ↔ i < l.columns ∧ j < l.rows := by
  simp only [cells, List.mem_flatMap, List.mem_map, List.mem_range, Prod.mk.injEq]
  constructor
  · intro ⟨_, hj, _, hi, rfl, rfl⟩
    exact ⟨hi, hj⟩
  · intro ⟨hi, hj⟩
    exact ⟨j, hj, i, hi, rfl, rfl⟩

/-- **The segments of all cells,** in the order of the cells. -/
@[specialize]
def segments (l : Lattice α) : List (Segment α) := l.cells.flatMap fun (i, j) => l.march i j

/-- Whether a cell may hold part of the zero set: its corners differ in sign, or
some of them have no value and others do. -/
@[specialize]
def straddles (l : Lattice α) (i j : Nat) : Bool :=
  let corners := l.corners i j
  let defined := corners.countP fun v => !Scalar.isUndefined v
  let positive := corners.countP isPositive
  -- where the field has no value at some corners, the curve may end inside the cell
  if defined = 0 then false
  else if defined < corners.length then true
  else positive != 0 && positive != corners.length

end Lattice

end CurvePlot
