import RobotProgram.Projector
import RobotProgram.Settings

/-!
# Listings

A program is printed as a tree: one row for each event and below it one for each of its commands,
indented by its depth. Lit rows start with a marker, the others with blanks as wide as the marker.

How many blanks a row needs for its depth is a product of words, and there must be room for them:
printing goes from row to row and may stop at one of them.

## Main definitions

* `Listing.items`: what is printed of a program, one row for each.
* `Listing.rows`: the rows of a program.
* `Listing.render`: the printed tree.
* `Listing.Machine`: what a tree is printed on.
* `Listing.print`: the printed tree, or why printing stops.
* `Listing.header`: the banner above it.
-/

namespace RobotProgram.Listing

def blanks (n : Nat) : String := String.ofList (List.replicate n ' ')

/-- Parameters behind a title: nothing for none, otherwise every name with its value. -/
def parametersText : Parameters → String
  | none => ""
  | some bag =>
    if bag.members.isEmpty then ""
    else
      " (" ++ String.intercalate ", "
        (bag.members.map fun (name, value) => name ++ "=" ++ String.ofList value.compact) ++ ")"

/-- What stands before a row. -/
def margin (display : DisplaySettings) (lit : Bool) : String :=
  if lit then display.marker else blanks display.marker.length

/-- How many blanks set a command off for its depth. -/
def padding (display : DisplaySettings) (command : Command) : Nat :=
  command.indent * display.indentWidth

/-- A number set to the right of three columns. -/
def placeText (n : Nat) : String :=
  let digits := toString n
  blanks (3 - digits.length) ++ digits

def eventRow (display : DisplaySettings) (lit selected : Bool) (place : Nat) (event : Event) :
    String :=
  margin display lit ++ " " ++ (if selected then "*" else " ") ++ "[" ++ toString place ++ "] "
    ++ event.kind.title ++ parametersText event.parameters

/-- The row of a command that is set off by a given text. -/
def paddedRow (display : DisplaySettings) (lit : Bool) (place : Nat) (command : Command)
    (padding : String) : String :=
  margin display lit ++ "     " ++ placeText place ++ "  " ++ padding ++ command.kind.title
    ++ parametersText command.parameters

def commandRow (display : DisplaySettings) (lit : Bool) (place : Nat) (command : Command) :
    String :=
  paddedRow display lit place command (blanks (padding display command))

/-! ## Rows -/

/-- What a row is printed of. -/
inductive Item where
  /-- A program without events. -/
  | nothing
  | event (lit selected : Bool) (place : Nat) (event : Event)
  | command (lit : Bool) (place : Nat) (command : Command)

def Item.row (display : DisplaySettings) : Item → String
  | nothing => "(empty program)"
  | event lit selected place e => eventRow display lit selected place e
  | command lit place c => commandRow display lit place c

/-- An event and its commands. -/
def eventItems (highlights : Highlights) (selected : Option (Handle Event)) (place : Nat)
    (h : Handle Event) (event : Event) : List Item :=
  .event (highlights.hasEvent h) (some h = selected) place event
    :: event.routine.entries.zipIdx.map fun ((c, command), i) =>
      .command (highlights.hasCommand h c) i command

/-- What is printed of a program, in order. -/
def items (program : Program) (highlights : Highlights) : List Item :=
  if program.length = 0 then [.nothing]
  else
    program.entries.zipIdx.flatMap fun ((h, event), place) =>
      eventItems highlights program.selected place h event

/-- The row of an event and the rows of its commands. -/
def eventRows (highlights : Highlights) (display : DisplaySettings)
    (selected : Option (Handle Event)) (place : Nat) (h : Handle Event) (event : Event) :
    List String :=
  (eventItems highlights selected place h event).map (·.row display)

/-- The rows of a program. -/
def rows (program : Program) (highlights : Highlights) (display : DisplaySettings) :
    List String :=
  (items program highlights).map (·.row display)

theorem eventRows_eq (highlights : Highlights) (display : DisplaySettings)
    (selected : Option (Handle Event)) (place : Nat) (h : Handle Event) (event : Event) :
    eventRows highlights display selected place h event =
      eventRow display (highlights.hasEvent h) (some h = selected) place event ::
        event.routine.entries.zipIdx.map fun e =>
          commandRow display (highlights.hasCommand h e.1.1) e.2 e.1.2 := by
  simp [eventRows, eventItems, Item.row, Function.comp_def]

theorem rows_eq (program : Program) (highlights : Highlights) (display : DisplaySettings) :
    rows program highlights display =
      if program.length = 0 then ["(empty program)"]
      else
        program.entries.zipIdx.flatMap fun e =>
          eventRows highlights display program.selected e.2 e.1.1 e.1.2 := by
  unfold rows items
  split
  · rfl
  · exact List.map_flatMap ..

/-- Rows as a text in which a line break follows each of them. -/
def joinRows (rows : List String) : String := String.join (rows.map (· ++ "\n"))

/-- The printed tree of a program. -/
def render (program : Program) (highlights : Highlights) (display : DisplaySettings) : String :=
  joinRows (rows program highlights display)

/-! ## Printing in words -/

/-- Why printing stops. -/
inductive Stop where
  /-- A product does not fit into a word. -/
  | overflow
  /-- There is no room for a text of so many bytes. -/
  | noRoom (bytes : Nat)
  deriving DecidableEq

/-- The most bytes that a text can have: no more than a signed word counts. -/
def maxBytes : Nat := 9223372036854775807

def Stop.message : Stop → String
  | overflow => "attempt to multiply with overflow"
  | noRoom bytes =>
    if bytes ≤ maxBytes then "memory allocation of " ++ toString bytes ++ " bytes failed"
    else "capacity overflow"

/-- What a tree is printed on. -/
structure Machine where
  /-- Whether a product that does not fit into a word stops the program, or wraps around. -/
  trapping : Bool
  /-- Whether there is room for a text of so many bytes once so many rows are printed. -/
  hasRoom : (rows bytes : Nat) → Bool
  le_maxBytes : ∀ rows bytes, hasRoom rows bytes = true → bytes ≤ maxBytes

namespace Machine

/-- A machine that wraps around and is as large as a machine can be. -/
def largest : Machine where
  trapping := false
  hasRoom _ bytes := bytes ≤ maxBytes
  le_maxBytes _ _ := of_decide_eq_true

/-- The product of two words. -/
def product (m : Machine) (a b : UInt64) : Except Stop UInt64 :=
  if m.trapping = true ∧ UInt64.size ≤ a.toNat * b.toNat then .error .overflow else .ok (a * b)

/-- So many blanks, asked for once so many rows are printed. -/
def blanks (m : Machine) (rows : Nat) (count : UInt64) : Except Stop String :=
  if m.hasRoom rows count.toNat then .ok (Listing.blanks count.toNat)
  else .error (.noRoom count.toNat)

end Machine

/-- Prints the row of an item below so many others. -/
def Item.print (m : Machine) (display : DisplaySettings) (rows : Nat) : Item → Except Stop String
  | command lit place c => do
    let count ← m.product (.ofNat c.indent) (.ofNat display.indentWidth)
    return paddedRow display lit place c (← m.blanks rows count)
  | item => return item.row display

/-- Prints one row after the other. -/
def printItems (m : Machine) (display : DisplaySettings) (items : List Item) :
    Except Stop (List String) :=
  items.zipIdx.mapM fun (item, rows) => item.print m display rows

/-- Prints the tree of a program. -/
def print (m : Machine) (program : Program) (highlights : Highlights)
    (display : DisplaySettings) : Except Stop String :=
  return joinRows (← printItems m display (items program highlights))

/-! ## The banner -/

/-- The versions of the program and of its engine. -/
def version : String := "0.1.0"

def rule (c : Char) : String := String.ofList (List.replicate 47 c)

/-- A moment as a calendar and a clock show it. -/
structure Moment where
  year : Nat
  month : Nat
  day : Nat
  hour : Nat
  minute : Nat
  second : Nat

/-- A number with zeros in front up to a width. -/
def zeroPadded (width n : Nat) : String :=
  let digits := toString n
  String.ofList (List.replicate (width - digits.length) '0') ++ digits

/-- Date and time of day; a year of more than four digits has a sign. -/
def Moment.text (m : Moment) : String :=
  (if 9999 < m.year then "+" else "") ++ zeroPadded 4 m.year ++ "-" ++ zeroPadded 2 m.month ++ "-"
    ++ zeroPadded 2 m.day ++ " " ++ zeroPadded 2 m.hour ++ ":" ++ zeroPadded 2 m.minute ++ ":"
    ++ zeroPadded 2 m.second

/-- The banner above a listing: where the program comes from and when it was printed. -/
def header (source generated : String) : String :=
  joinRows
    [rule '═', "  Robot Program: " ++ source,
      "  program-cli v" ++ version ++ " / program-engine v" ++ version,
      "  Generated: " ++ generated, rule '═']

end RobotProgram.Listing
