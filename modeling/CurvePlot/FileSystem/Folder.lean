import CurvePlot.FileSystem
/-!
# Folders held as values

A folder of files that is held as a value, with a file system of its own. A path
is a walk through folders: names lead down, `..` leads up, and `.` stays. Paths
with a slash in front start at the top, all others at the place where the folder
is worked in.

Main statements: a file reads as it was written (`Folder.read?_write`), and no
other file is touched by writing (`Folder.read?_write_of_ne`).
-/

namespace CurvePlot

/-- A folder of files and further folders, by their places: the names that lead
there from the top. -/
structure Folder where
  files : List (List String × String)
  /-- The folders that were made in it. -/
  folders : List (List String)
  /-- The place where it is worked in, a folder. -/
  here : List String
deriving Repr

namespace Folder

/-- The folder without files, worked in at its top. -/
def empty : Folder := ⟨[], [], []⟩

/-- What stands between the slashes of a path. -/
def parts (path : String) : List String :=
  let pieces := (path.toList.splitBy fun a b => a != '/' && b != '/').map String.ofList
  pieces.filter (· != "/")

/-- The steps of a path. A slash at its end is a step that stays. -/
def steps (path : String) : List String :=
  parts path ++ (if path.endsWith "/" then ["."] else [])

/-- The steps to the folders that a path asks to be made. One with a point behind it
at the end of the path is not made, as the point can only be reached from there. -/
def stepsToMake (path : String) : List String :=
  let backwards := (parts path).reverse
  let behindPoints := backwards.dropWhile (· == ".")
  if backwards.head? = some "." then (behindPoints.drop 1).reverse else backwards.reverse

/-- The content of a file. -/
def read? (f : Folder) (place : List String) : Option String := f.files.lookup place

/-- Whether there is a folder at a place: the folder itself, the one that is worked
in, one that was made in it, or one that holds a file or folder. -/
def hasFolder (f : Folder) (place : List String) : Bool :=
  place.isEmpty || (f.here :: f.folders ++ f.files.map fun e => e.1.dropLast).any place.isPrefixOf

/-- The folder with a file of that content. -/
def write (f : Folder) (place : List String) (content : String) : Folder :=
  { f with files := (place, content) :: f.files.filter fun e => e.1 != place }

/-! ### Paths -/

def longestName : Nat := 255

def longestPath : Nat := 4095

/-- Where a step leads. The step up from the top stays there. -/
def follow (place : List String) (step : String) : List String :=
  if step = "." then place else if step = ".." then place.dropLast else place ++ [step]

/-- Where a walk leads that begins at a place. Every step is taken from a folder. -/
def walk? (f : Folder) (place : List String) : List String → Option (List String)
  | [] => some place
  | step :: rest =>
    if f.hasFolder place && step.utf8ByteSize ≤ longestName then walk? f (follow place step) rest
    else none

/-- Where the walk along a path begins. -/
def start (f : Folder) (path : String) : List String := if path.startsWith "/" then [] else f.here

/-- The place that a path leads to, where there need not be anything. -/
def locate? (f : Folder) (path : String) : Option (List String) :=
  if path.isEmpty || longestPath < path.utf8ByteSize then none
  else f.walk? (f.start path) (steps path)

/-- The folder with a folder at every place of a walk that begins at a place. None
if a file is on the way. -/
def pave? (f : Folder) (place : List String) : List String → Option Folder
  | [] => some f
  | step :: rest =>
    let place := follow place step
    if (f.read? place).isSome || longestName < step.utf8ByteSize then none
    else pave? { f with folders := place :: f.folders } place rest

/-- The file system of a folder. -/
def fileSystem : FileSystem (StateM Folder) where
  read path := do
    let f ← get
    return (f.locate? path).bind f.read?
  write path content := do
    let f ← get
    match (f.locate? path).filter fun place => !f.hasFolder place with
    | none => return false
    | some place =>
      set (f.write place content)
      return true
  makeFolder path := do
    let f ← get
    match f.pave? (f.start path) (stepsToMake path) with
    | none => return false
    | some paved =>
      set paved
      return (paved.locate? path).any paved.hasFolder

/-! ### Reading what was written -/

theorem read?_write (f : Folder) (place : List String) (content : String) :
    (f.write place content).read? place = some content := by
  simp [write, read?]

theorem lookup_filter_ne {place other : List String} (h : other ≠ place)
    (files : List (List String × String)) :
    (files.filter fun e => e.1 != place).lookup other = files.lookup other := by
  have hs : (other == place) = false := by simp [h]
  induction files with
  | nil => rfl
  | cons e files ih =>
    obtain ⟨key, content⟩ := e
    by_cases he : key = place
    · simp [he, List.lookup_cons, hs, ih]
    · simp [he, List.lookup_cons, ih]

theorem read?_write_of_ne (f : Folder) {place other : List String} (h : other ≠ place)
    (content : String) : (f.write place content).read? other = f.read? other := by
  have : (other == place) = false := by simp [h]
  simp [write, read?, List.lookup_cons, this, lookup_filter_ne h]

end Folder

end CurvePlot
