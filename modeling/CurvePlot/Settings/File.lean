import CurvePlot.Settings.File.Item
/-!
# Settings files

Settings files are TOML documents. `Settings.ofFile?` reads one and takes the
entries at its top over into the standard settings. A file that is malformed, that
says something twice or that has a value of the wrong kind is refused as a whole.
Entries of other names, and tables of other names, mean nothing.
-/

namespace CurvePlot.Settings

namespace File

/-- The text without the mark of byte order that it may begin with, and with line
feeds as the only line ends. -/
def normalized : List Char → List Char :=
  let rec joinLines : List Char → List Char
    | [] => []
    | '\r' :: '\n' :: rest => '\n' :: joinLines rest
    | c :: rest => c :: joinLines rest
  fun text => joinLines (if text.head? = some '\ufeff' then text.drop 1 else text)

/-- What has been read of a file. -/
structure Progress where
  entries : Entries
  /-- The path of the last heading, empty above all of them. -/
  heading : List String

/-- What stands on the next lines, if nothing but a comment is left on this one. -/
def nextLine? (text : List Char) : Option (List Char) :=
  match skipSpace text with
  | [] => some []
  | '\n' :: rest => some rest
  | '#' :: rest =>
    if (rest.takeWhile (· != '\n')).all isAllowed then some ((rest.dropWhile (· != '\n')).drop 1)
    else none
  | _ => none

/-- Reads the path of a heading and its closing brackets, and what stands behind. -/
def heading? (closing text : List Char) : Option (List String × List Char) := do
  let (path, rest) ← path? (skipSpace text)
  some (path, ← Text.dropStart? closing rest)

/-- Reads a line with a heading or an entry, and what stands behind that. -/
def statement? (p : Progress) (text : List Char) : Option (Progress × List Char) :=
  match text with
  | '[' :: '[' :: rest => do
    let (path, rest) ← heading? [']', ']'] rest
    some (⟨← p.entries.extend? path, path⟩, rest)
  | '[' :: rest => do
    let (path, rest) ← heading? [']'] rest
    some (⟨← p.entries.open? path, path⟩, rest)
  | _ => do
    let (path, v, rest) ← entry? text
    some ({ p with entries := ← p.entries.insertUnder? p.heading path v }, rest)

/-- Reads a text of at most `fuel` headings and entries. -/
def statements? : (fuel : Nat) → Progress → List Char → Option Progress
  | 0, _, _ => none
  | fuel + 1, p, text =>
    match skipLines false text with
    | [] => some p
    | text => do
      let (p, rest) ← statement? p text
      statements? fuel p (← nextLine? rest)

/-- All entries of a file. -/
def entries? (text : List Char) : Option Entries :=
  let text := normalized text
  (statements? (text.length + 1) ⟨[], []⟩ text).map (·.entries)

end File

/-- **Reads settings from the text of a file.** -/
def ofFile? (text : String) : Option (Settings Float) := do
  Settings.standard.assignAll? (← File.entries? text.toList).values

end CurvePlot.Settings
