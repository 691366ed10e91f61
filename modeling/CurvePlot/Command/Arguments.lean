import CurvePlot.Command.SliderArg
/-!
# The command line

What can be asked for on the command line: one file of equations, and flags that
each take a value. A flag has a long name, and most have a letter:

    --width 8    --width=8    -s 8    -s8    -s=8

Behind `--` everything is a file. Reading goes in two steps: `items?` cuts the
arguments into files and values of flags, and `Arguments.ofItems?` makes sense of
them. Help and version are no flags here: who asks for them gets no plot.
-/

namespace CurvePlot.Command

/-- A flag, which takes a value. -/
inductive Flag where
  /-- Where the snapshot goes. -/
  | output
  | config
  | width
  | height
  | centerX
  | centerY
  /-- The pixels for a unit. -/
  | scale
  /-- A slider value, for every equation that has the slider. -/
  | slider
  | logFolder
deriving Repr, DecidableEq

namespace Flag

/-- The flags by their long names. -/
def longNames : List (String × Flag) :=
  [("output", output), ("config", config), ("width", width), ("height", height),
   ("center-x", centerX), ("center-y", centerY), ("scale", scale), ("param", slider),
   ("log-dir", logFolder)]

/-- The flags by their letters. -/
def letters : List (Char × Flag) :=
  [('o', output), ('c', config), ('x', centerX), ('y', centerY), ('s', scale), ('p', slider),
   ('l', logFolder)]

/-- Whether a negative number may follow as an argument of its own. -/
def takesNegative (flag : Flag) : Bool :=
  flag = centerX || flag = centerY || flag = slider

end Flag

/-- A piece of the command line. -/
inductive Item where
  /-- A file. -/
  | file (path : String)
  /-- A flag with its value. -/
  | setting (flag : Flag) (value : String)
deriving Repr, DecidableEq

/-- How an argument begins a piece of the command line. -/
inductive Opening where
  /-- It is a whole piece. -/
  | whole (item : Item)
  /-- It is a flag that waits for its value. -/
  | waiting (flag : Flag)
deriving Repr, DecidableEq

/-- Reads a long name with or without a value behind an equality sign. -/
def openLong? (text : List Char) : Option Opening :=
  match Decimal.splitAt? '=' text with
  | some (name, value) =>
    (Flag.longNames.lookup (String.ofList name)).map fun f =>
      .whole (.setting f (String.ofList value))
  | none => (Flag.longNames.lookup (String.ofList text)).map .waiting

/-- Reads a letter with or without a value behind it. An equality sign in between
is not part of the value. -/
def openLetter? (letter : Char) (rest : List Char) : Option Opening :=
  (Flag.letters.lookup letter).map fun f =>
    match rest with
    | [] => .waiting f
    | '=' :: value => .whole (.setting f (String.ofList value))
    | value => .whole (.setting f (String.ofList value))

/-- Reads an argument. A lone dash is a file. -/
def open? (arg : String) : Option Opening :=
  match arg.toList with
  | '-' :: '-' :: text => openLong? text
  | '-' :: letter :: rest => openLetter? letter rest
  | _ => some (.whole (.file arg))

/-- Whether a text looks like an unsigned number: digits, then perhaps a point with
more digits, then perhaps an `e` in either case with digits behind it. There is at
least one digit in front, if there is anything. -/
def looksLikeNumber (text : List Char) : Bool :=
  let mantissa := text.takeWhile fun c => c != 'e' && c != 'E'
  let (whole, fraction) := Decimal.splitPoint mantissa
  let startsWell := !whole.isEmpty || text.isEmpty
  match text.drop mantissa.length with
  | [] => startsWell && Decimal.allDigits whole && Decimal.allDigits fraction
  | _ :: exponent =>
    startsWell && Decimal.allDigits whole && Decimal.allDigits fraction && !exponent.isEmpty
      && Decimal.allDigits exponent

/-- Whether an argument can be the value of a flag that waits for one. -/
def Flag.accepts (flag : Flag) (arg : String) : Bool :=
  match arg.toList with
  | ['-'] => true
  | '-' :: rest => flag.takesNegative && looksLikeNumber rest
  | _ => true

/-- **Cuts the arguments into pieces,** none if one of them makes no sense. -/
def items? : List String → Option (List Item)
  | [] => some []
  | arg :: rest =>
    if arg = "--" then some (rest.map .file)
    else
      match open? arg with
      | none => none
      | some (.whole item) => (items? rest).map (item :: ·)
      | some (.waiting flag) =>
        -- the value is the next argument, unless that looks like a flag
        match rest with
        | [] => none
        | value :: rest =>
          if flag.accepts value then (items? rest).map (.setting flag value :: ·) else none

/-- What is asked for on the command line. -/
structure Arguments where
  file : String
  /-- The file that the snapshot goes to, rather than being printed. -/
  output : Option String
  config : Option String
  width : Decimal.Signed
  height : Decimal.Signed
  centerX : Decimal.Signed
  centerY : Decimal.Signed
  /-- The pixels for a unit, if not those of the settings. -/
  scale : Option Float
  /-- The slider values in their order. -/
  sliders : List SliderArg
  logFolder : Option String

namespace Arguments

/-- The files among the pieces. -/
def files (items : List Item) : List String :=
  items.filterMap fun
    | .file path => some path
    | .setting _ _ => none

/-- The values of a flag among the pieces. -/
def values (items : List Item) (flag : Flag) : List String :=
  items.filterMap fun
    | .file _ => none
    | .setting f value => if f = flag then some value else none

/-- The value of a flag that may be given once, read by a reader. None if it is
given more often or cannot be read. -/
def single? {α : Type} (items : List Item) (flag : Flag) (read : String → Option α) :
    Option (Option α) :=
  match values items flag with
  | [] => some none
  | [value] => (read value).map some
  | _ => none

/-- A path, which is not empty. -/
def path? (text : String) : Option String := if text.isEmpty then none else some text

def number? (text : String) : Option Decimal.Signed := Decimal.signed? text.toList

def slider? (text : String) : Option SliderArg := (SliderArg.read text).toOption

/-- Makes sense of the pieces of a command line: there has to be one file. -/
def ofItems? (items : List Item) : Option Arguments := do
  let [file] := files items | none
  let number (flag : Flag) (otherwise : Float) : Option Decimal.Signed :=
    (single? items flag number?).map (·.getD ⟨otherwise, false⟩)
  some
    { file := ← path? file
      output := ← single? items .output path?
      config := ← single? items .config path?
      width := ← number .width 800.0
      height := ← number .height 600.0
      centerX := ← number .centerX 0.0
      centerY := ← number .centerY 0.0
      scale := (← single? items .scale number?).map (·.value)
      sliders := ← (values items .slider).mapM slider?
      logFolder := ← single? items .logFolder path? }

/-- Reads a command line, without the name of the program. -/
def read? (args : List String) : Option Arguments := (items? args).bind ofItems?

end Arguments

end CurvePlot.Command
