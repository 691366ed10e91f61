import CurvePlot.Settings
/-!
# Tables of settings files

A settings file is a tree of tables. A table comes to be in one of three ways: by
a heading, by standing on the way to the table of a heading, or by standing on
the way to an entry with a dotted path. What may still be added to it depends on
that:

* an entry with a dotted path goes on through tables that such paths made, and not
  into one that has a heading;
* a heading may name a table again that only stood on the way to another heading;
* a list of tables grows by headings of its own, and what is added to it is added
  to its last table.

Nothing can be said twice: `insert?`, `open?` and `extend?` have no answer then.
-/

namespace CurvePlot.Settings.File

/-- How a table came to be. -/
inductive Origin where
  /-- By a heading, or as the whole file or a list item. -/
  | headed
  /-- By standing on the way to the table of a heading. -/
  | implied
  /-- By standing on the way to an entry. -/
  | dotted
deriving Repr, DecidableEq

/-- What a key stands for. -/
inductive Node where
  /-- A value, to which nothing can be added. -/
  | value (v : Value)
  | table (origin : Origin) (entries : List (String × Node))
  /-- A list of tables, by the entries of the last. -/
  | tables (last : List (String × Node))

/-- The entries of a table, by their keys. -/
abbrev Entries := List (String × Node)

namespace Entries

/-- The entries with a key standing for something else, or for something at last. -/
def put (entries : Entries) (key : String) (node : Node) : Entries :=
  if (entries.lookup key).isSome then
    entries.map fun e => if e.1 == key then (key, node) else e
  else entries ++ [(key, node)]

/-- The entries with the table at the end of a path changed. Tables that are not
there come to be on the way, by the path of an entry (`dotted`) or of a heading.
None if there is something else on the way, or a table that the path may not go
through. -/
def changeAt? (dotted : Bool) (change : Origin → Entries → Option Entries) :
    List String → Origin → Entries → Option Entries
  | [], origin, entries => change origin entries
  | key :: path, _, entries =>
    match entries.lookup key with
    | none => do
      let made : Origin := if dotted then .dotted else .implied
      some (entries.put key (.table made (← changeAt? dotted change path made [])))
    | some (.value _) => none
    | some (.table origin inner) =>
      if dotted && origin = .headed then none
      else do some (entries.put key (.table origin (← changeAt? dotted change path origin inner)))
    | some (.tables last) => do
      some (entries.put key (.tables (← changeAt? dotted change path .headed last)))

/-- Adds an entry by its path. The last table on the way has to be the table itself
or one that a dotted path made. -/
def insert? (entries : Entries) (path : List String) (v : Value) : Option Entries :=
  let isDotted := 1 < path.length
  let add (origin : Origin) (entries : Entries) : Option Entries :=
    let key := path.getLastD ""
    if (origin == .dotted) != isDotted || (entries.lookup key).isSome then none
    else some (entries.put key (.value v))
  entries.changeAt? true add path.dropLast .headed

/-- Gives a heading to a table that has none yet. -/
def open? (entries : Entries) (path : List String) : Option Entries :=
  let key := path.getLastD ""
  let add (_ : Origin) (entries : Entries) : Option Entries :=
    match entries.lookup key with
    | none => some (entries.put key (.table .headed []))
    | some (.table .implied inner) => some (entries.put key (.table .headed inner))
    | some _ => none
  entries.changeAt? false add path.dropLast .headed

/-- Adds a table to a list of tables. -/
def extend? (entries : Entries) (path : List String) : Option Entries :=
  let key := path.getLastD ""
  let add (_ : Origin) (entries : Entries) : Option Entries :=
    match entries.lookup key with
    | none | some (.tables _) => some (entries.put key (.tables []))
    | some _ => none
  entries.changeAt? false add path.dropLast .headed

/-- Adds an entry to the table under a heading. -/
def insertUnder? (entries : Entries) (heading path : List String) (v : Value) : Option Entries :=
  entries.changeAt? false (fun _ inner => inner.insert? path v) heading .headed

/-- The keys with their values, a table being no number. -/
def values (entries : Entries) : List (String × Value) :=
  entries.map fun (key, node) =>
    match node with
    | .value v => (key, v)
    | _ => (key, .other)

end Entries

end CurvePlot.Settings.File
