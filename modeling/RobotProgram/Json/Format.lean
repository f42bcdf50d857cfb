import RobotProgram.Bag
import RobotProgram.Json.Reader

/-!
# Typed JSON

A format says how the values of a type are read, both from the front of a text, where reading and
checking are one pass, and from a value that has been read before. Faults name what was wanted.

A layout describes a record by its fields. A record is written as an object, with its members in any
order and further members ignored, or as the list of its fields in the order of the layout.

## Main definitions

* `Json.Format`: reading values of a type.
* `Json.Format.string`, `bool`, `natural`, `bag`, `optional`, `list`: the formats of plain values.
* `Json.Layout`: the fields of a record; `Json.Layout.format` reads it.
* `Json.Format.readText`: reads a whole text.
-/

namespace RobotProgram.Json

/-- How values of a type are read. -/
structure Format (α : Type) where
  ofText : Nat → List Char → Reading (α × List Char)
  ofJson : Json → Reading α

/-- The fault of a text that starts with something else than was wanted. -/
def mismatch (want : String) : List Char → Fault
  | '[' :: _ => .wrongType .sequence want
  | '\x7b' :: _ => .wrongType .map want
  | text =>
    match scalar text with
    | .ok (got, _) => .wrongType (shown got) want
    | .error fault => fault

namespace Format

def map {α β : Type} (f : α → β) (format : Format α) : Format β where
  ofText depth text := do
    let (x, rest) ← format.ofText depth text
    .ok (f x, rest)
  ofJson json := do .ok (f (← format.ofJson json))

/-! ## Plain values -/

def string : Format String where
  ofText _ text :=
    match skipBlank text with
    | '"' :: rest => quotedRest rest
    | text => .error (mismatch "a string" text)
  ofJson
    | .string s => .ok s
    | json => .error (.wrongType (shown json) "a string")

def bool : Format Bool where
  ofText _ text :=
    match skipBlank text with
    | 't' :: rest => do .ok (true, ← word ['r', 'u', 'e'] rest)
    | 'f' :: rest => do .ok (false, ← word ['a', 'l', 's', 'e'] rest)
    | text => .error (mismatch "a boolean" text)
  ofJson
    | .bool b => .ok b
    | json => .error (.wrongType (shown json) "a boolean")

/-- The natural of a number; a negative integer has the right type but not the right value. -/
def asNatural (want : String) : Json → Reading Nat
  | .integer i =>
    if 0 ≤ i.val then .ok i.val.toNat else .error (.wrongValue (.integer i.val) want)
  | json => .error (.wrongType (shown json) want)

/-- Naturals of 64 bits, under the name that messages give them. -/
def natural (want : String) : Format Nat where
  ofText _ text :=
    let digits (negative : Bool) (text : List Char) : Reading (Nat × List Char) := do
      let (n, rest) ← number negative text
      .ok (← asNatural want n, rest)
    match skipBlank text with
    | '-' :: rest => digits true rest
    | c :: rest =>
      if c.isDigit then digits false (c :: rest) else .error (mismatch want (c :: rest))
    | [] => .error (.ended .value)
  ofJson := asNatural want

/-- The bag of an object. -/
def asBag : Json → Reading Bag
  | .object members => .ok (.ofMembers members)
  | json => .error (.wrongType (shown json) "a map")

def bag : Format Bag where
  ofText depth text :=
    match skipBlank text with
    | '\x7b' :: rest => do
      let (json, rest) ← value depth ('\x7b' :: rest)
      .ok (← asBag json, rest)
    | text => .error (mismatch "a map" text)
  ofJson := asBag

/-! ## Composed formats -/

/-- A value or null. -/
def optional {α : Type} (format : Format α) : Format (Option α) where
  ofText depth text :=
    match skipBlank text with
    | 'n' :: rest => do .ok (none, ← word ['u', 'l', 'l'] rest)
    | text => do
      let (x, rest) ← format.ofText depth text
      .ok (some x, rest)
  ofJson
    | .null => .ok none
    | json => do .ok (some (← format.ofJson json))

def list {α : Type} (format : Format α) : Format (List α) where
  ofText depth text :=
    match skipBlank text with
    | '[' :: rest =>
      match depth with
      | 0 => .error .tooDeep
      | depth + 1 => items (format.ofText depth) (rest.length + 1) true rest
    | text => .error (mismatch "a sequence" text)
  ofJson
    | .array xs => xs.mapM format.ofJson
    | json => .error (.wrongType (shown json) "a sequence")

end Format

/-! ## Records -/

/-- One field of a record: its name, whether it may be missing, and how it is put into the record. -/
structure Field (ρ : Type) where
  name : String
  required : Bool
  format : Format (ρ → ρ)

/-- A record by its fields; `blank` has the values of fields that are missing. -/
structure Layout (ρ : Type) where
  name : String
  fields : List (Field ρ)
  blank : ρ

namespace Layout

variable {ρ : Type}

/-- How messages call the record. -/
def want (layout : Layout ρ) : String := "struct " ++ layout.name

/-- How messages call the record when it is a list of fields. -/
def wantItems (layout : Layout ρ) : String :=
  let n := layout.fields.length
  layout.want ++ " with " ++ toString n ++ (if n = 1 then " element" else " elements")

def field? (layout : Layout ρ) (name : String) : Option (Field ρ) :=
  layout.fields.find? (·.name == name)

/-- The record of the fields seen, unless one that is required is missing. -/
def finish (layout : Layout ρ) (seen : List String) (record : ρ) : Reading ρ :=
  match layout.fields.find? fun field => field.required && !seen.contains field.name with
  | some field => .error (.missingField field.name)
  | none => .ok record

/-- The fault of a list that ends before a required field, the first of `rest` being the `i`-th. -/
def finishItems (layout : Layout ρ) (i : Nat) (rest : List (Field ρ)) (record : ρ) : Reading ρ :=
  match rest.findIdx? (·.required) with
  | some n => .error (.wrongLength (i + n) layout.wantItems)
  | none => .ok record

/-! ### From a text -/

/-- Reads the member of a given name into the record, or skips it. -/
def member (layout : Layout ρ) (depth : Nat) (state : List String × ρ) (name : String)
    (text : List Char) : Reading ((List String × ρ) × List Char) :=
  match layout.field? name with
  | none => do .ok (state, ← skip (← colon text))
  | some field =>
    if state.1.contains name then .error (.duplicateField name)
    else do
      let (put, rest) ← field.format.ofText depth (← colon text)
      .ok ((name :: state.1, put state.2), rest)

/-- Passes over the end of a list that should have ended. -/
def endItems (text : List Char) : Reading (List Char) :=
  match skipBlank text with
  | [] => .error (.ended .list)
  | ']' :: rest => .ok rest
  | ',' :: rest =>
    match skipBlank rest with
    | ']' :: _ => .error .trailingComma
    | _ => .error .trailingCharacters
  | _ => .error .trailingCharacters

/-- Reads the fields in order, the first of them being the `i`-th, and the closing bracket. -/
def itemsOfText (layout : Layout ρ) (depth : Nat) :
    Nat → List (Field ρ) → ρ → List Char → Reading (ρ × List Char)
  | _, [], record, text => do .ok (record, ← endItems text)
  | i, field :: rest, record, text => do
    match ← nextItem (i == 0) text with
    | .done after => .ok (← layout.finishItems i (field :: rest) record, after)
    | .item text =>
      let (put, text) ← field.format.ofText depth text
      layout.itemsOfText depth (i + 1) rest (put record) text

def ofText (layout : Layout ρ) (depth : Nat) (text : List Char) : Reading (ρ × List Char) :=
  match skipBlank text with
  | '[' :: rest =>
    match depth with
    | 0 => .error .tooDeep
    | depth + 1 => layout.itemsOfText depth 0 layout.fields layout.blank rest
  | '\x7b' :: rest =>
    match depth with
    | 0 => .error .tooDeep
    | depth + 1 => do
      let ((seen, record), rest) ←
        Json.fields (layout.member depth) (rest.length + 1) true ([], layout.blank) rest
      .ok (← layout.finish seen record, rest)
  | text => .error (mismatch layout.want text)

/-! ### From a value -/

def membersOfJson (layout : Layout ρ) :
    List String → ρ → List (String × Json) → Reading ρ
  | seen, record, [] => layout.finish seen record
  | seen, record, (name, value) :: rest =>
    match layout.field? name with
    | none => layout.membersOfJson seen record rest
    | some field =>
      if seen.contains name then .error (.duplicateField name)
      else do
        let put ← field.format.ofJson value
        layout.membersOfJson (name :: seen) (put record) rest

/-- Puts values into the fields in order; `total` is the length of the whole list. -/
def itemsOfJson (layout : Layout ρ) (total : Nat) :
    Nat → List (Field ρ) → ρ → List Json → Reading ρ
  | i, rest, record, [] => layout.finishItems i rest record
  | _, [], _, _ :: _ => .error (.wrongLength total "fewer elements in array")
  | i, field :: rest, record, value :: values => do
    let put ← field.format.ofJson value
    layout.itemsOfJson total (i + 1) rest (put record) values

def ofJson (layout : Layout ρ) : Json → Reading ρ
  | .array values => layout.itemsOfJson values.length 0 layout.fields layout.blank values
  | .object members => layout.membersOfJson [] layout.blank members
  | json => .error (.wrongType (shown json) layout.want)

def format (layout : Layout ρ) : Format ρ := ⟨layout.ofText, layout.ofJson⟩

end Layout

/-! ## Whole texts -/

/-- How many containers may be open at once. -/
def depthLimit : Nat := 127

/-- Reads a text that holds one value and nothing else but blanks. -/
def Format.readText {α : Type} (format : Format α) (text : String) : Reading α := do
  let (x, rest) ← format.ofText depthLimit text.toList
  if skipBlank rest = [] then .ok x else .error .trailingCharacters

/-- Values of any shape, with their objects sorted. -/
def Format.any : Format Json where
  ofText := value
  ofJson json := .ok json

end RobotProgram.Json
