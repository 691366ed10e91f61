/-!
# Documents

Nested data as it is written to files: atoms, records in parentheses, lists in
brackets. Every item of a record or a list stands on a line of its own, four
spaces further in than the brackets around it, and ends in a comma.
-/

namespace CurvePlot

/-- A piece of nested data. -/
inductive Document where
  /-- A text that is written as it is. -/
  | atom (text : String)
  /-- An item of a record under its name. -/
  | field (name : String) (content : Document)
  /-- A single piece of data in parentheses behind a name. -/
  | wrapped (name : String) (content : Document)
  /-- Items in parentheses behind a name, which may be empty. -/
  | record (name : String) (items : List Document)
  | list (items : List Document)

namespace Document

/-- The blanks that a line at some depth begins with. -/
def indent (depth : Nat) : String := String.ofList (List.replicate (4 * depth) ' ')

/-- A line with an item. -/
def itemLine (depth : Nat) (item : String) : String := indent depth ++ item ++ ",\n"

/-- Item lines between brackets, or the brackets alone if there are none. -/
def bracketed (depth : Nat) (opening closing : String) (lines : List String) : String :=
  if lines.isEmpty then opening ++ closing
  else opening ++ "\n" ++ String.join lines ++ indent depth ++ closing

mutual

/-- The text of a document at some depth. -/
def render (depth : Nat) : Document → String
  | atom text => text
  | field name content => name ++ ": " ++ render depth content
  | wrapped name content => name ++ "(" ++ render depth content ++ ")"
  | record name items => name ++ bracketed depth "(" ")" (renderItems (depth + 1) items)
  | list items => bracketed depth "[" "]" (renderItems (depth + 1) items)

/-- The lines of items at some depth. -/
def renderItems (depth : Nat) : List Document → List String
  | [] => []
  | item :: rest => itemLine depth (render depth item) :: renderItems depth rest

end

def text (d : Document) : String := d.render 0

end Document

end CurvePlot
