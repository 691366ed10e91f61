/-!
# File systems

What a program needs of the place where it keeps its files. Every operation may
fail, and says no more than that it did.
-/

namespace CurvePlot

/-- Reading and writing files of text, as actions of `m`. -/
structure FileSystem (m : Type → Type) where
  /-- The content of a file, none if it cannot be read. -/
  read : String → m (Option String)
  /-- Gives a file a content; the answer says whether that could be done. -/
  write : String → String → m Bool
  /-- Makes a folder with all folders above it; the answer says whether it is
  there now. -/
  makeFolder : String → m Bool

end CurvePlot
