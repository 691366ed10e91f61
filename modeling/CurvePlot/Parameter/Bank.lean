import CurvePlot.Parameter
/-!
# Tables that share their sliders

A bank holds cells and several tables whose letters point to them. A cell is a slider with the
letter that it was made for. A copied table points to the same cells as the one it was copied from,
so that moving a slider through either shows in both; letters added later belong to one table
only.
-/

namespace CurvePlot.Parameter

/-- A slider, and the letter that it was made for. -/
structure Cell where
  name : Char
  slider : Parameter
deriving Repr, DecidableEq

/-- The cell with its slider changed. -/
def Cell.tune (c : Cell) (f : Parameter → Parameter) : Cell := { c with slider := f c.slider }

/-- Cells, and tables of letters that point to them. -/
structure Bank where
  /-- The cells, in order of their making. -/
  cells : Array Cell
  /-- For each table, the place of the cell of each of its letters. -/
  places : Keyed Nat (Keyed Char Nat)

namespace Bank

/-- The bank without cells. -/
def empty : Bank := ⟨#[], Keyed.empty⟩

/-- The places that a table points to. -/
def placesOf (b : Bank) (table : Nat) : Keyed Char Nat :=
  (b.places.get? table).getD Keyed.empty

/-- The cell of a letter of a table. -/
def cell? (b : Bank) (table : Nat) (name : Char) : Option Cell :=
  ((b.placesOf table).get? name).bind fun i => b.cells[i]?

/-- The cells of a table, in order of their letters. -/
def cellsOf (b : Bank) (table : Nat) : List Cell :=
  (b.placesOf table).values.filterMap fun i => b.cells[i]?

/-- A table as it now reads. -/
def table (b : Bank) (table : Nat) : Table :=
  (b.placesOf table).mapValues fun _ i => ((b.cells[i]?).map (·.slider)).getD standard

/-- Adds one letter with a cell of its own, unless the table has it. -/
def addLetter (b : Bank) (table : Nat) (name : Char) : Bank :=
  let places := b.placesOf table
  if places.contains name then b
  else ⟨b.cells.push ⟨name, standard⟩, b.places.insert table (places.insert name b.cells.size)⟩

/-- Adds the letters that a table does not have yet. -/
def register (b : Bank) (table : Nat) (names : List Char) : Bank :=
  names.foldl (fun b c => b.addLetter table c) b

/-- Changes the slider of a letter; none if the table does not have the letter. -/
def update? (b : Bank) (table : Nat) (name : Char) (f : Parameter → Parameter) : Option Bank :=
  ((b.placesOf table).get? name).map fun i => { b with cells := b.cells.modify i (·.tune f) }

/-- Moves the slider of a letter; none if the table does not have the letter. -/
def set? (b : Bank) (table : Nat) (name : Char) (value : Float) : Option Bank :=
  b.update? table name fun p => { p with value := value }

/-- Changes the range of the slider of a letter and says whether it did, which it does not unless
the lower end is below the upper end; none if the table does not have the letter. -/
def setRange? (b : Bank) (table : Nat) (name : Char) (min max : Float) : Option (Bank × Bool) :=
  (b.cell? table name).map fun c =>
    match c.slider.setRange? min max with
    | some p => ((b.update? table name fun _ => p).getD b, true)
    | none => (b, false)

/-- The cell of a letter takes over the slider that the other table has at this letter. -/
def inheritLetter (b : Bank) (table other : Nat) (name : Char) : Bank :=
  match b.cell? other name with
  | some old => (b.update? table name (·.inherit old.slider)).getD b
  | none => b

/-- Every cell of the table takes over the other table's slider of its letter. -/
def inherit (b : Bank) (table other : Nat) : Bank :=
  (b.placesOf table).keys.foldl (fun b c => b.inheritLetter table other c) b

/-- Makes a table a copy of the other, with the same cells. -/
def share (b : Bank) (table other : Nat) : Bank :=
  { b with places := b.places.insert table (b.placesOf other) }

end Bank

end CurvePlot.Parameter
