/-!
# Colors

Colors of eight bits a channel, and the palette that gives each new equation the
next of six colors.
-/

namespace CurvePlot

/-- A color by its red, green and blue parts. -/
structure Color where
  /-- The red part. -/
  r : UInt8
  /-- The green part. -/
  g : UInt8
  /-- The blue part. -/
  b : UInt8
deriving Repr, DecidableEq, Inhabited

namespace Color

/-- A byte as two hexadecimal digits. -/
def hexByte (n : UInt8) : List Char :=
  [Nat.digitChar (n.toNat / 16), Nat.digitChar (n.toNat % 16)]

/-- The color written as a hash sign and six hexadecimal digits. -/
def hex (c : Color) : String :=
  String.ofList ('#' :: hexByte c.r ++ hexByte c.g ++ hexByte c.b)

/-- The color of intercepts. -/
def lightGray : Color := ⟨211, 211, 211⟩

/-- The color of intersections. -/
def yellow : Color := ⟨255, 255, 0⟩

end Color

/-- A palette, by how many colors it has given out. -/
structure Palette where
  /-- How many colors were given out since the start or the last reset. -/
  given : Nat := 0
deriving Repr, DecidableEq, Inhabited

namespace Palette

/-- The colors in the order in which they are given out: red, blue, green,
orange, purple and black. -/
def colors : Vector Color 6 :=
  #v[⟨255, 0, 0⟩, ⟨0, 0, 255⟩, ⟨0, 128, 0⟩, ⟨255, 165, 0⟩, ⟨128, 0, 128⟩, ⟨0, 0, 0⟩]

/-- The color that is given out next. -/
def upcoming (p : Palette) : Color :=
  colors.get ⟨p.given % 6, Nat.mod_lt _ (by decide)⟩

/-- The palette after a color was given out. -/
def advance (p : Palette) : Palette := ⟨p.given + 1⟩

end Palette

end CurvePlot
