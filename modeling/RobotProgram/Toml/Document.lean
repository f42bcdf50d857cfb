import RobotProgram.Toml.Scalar

/-!
# TOML documents

A document is a sequence of lines: values under dotted keys, and headers, which open the table that
the values below them go to. Blank lines and comments may stand anywhere between.

## Main definitions

* `Toml.value?`: values, with arrays and inline tables.
* `Toml.Section`: a header and the values below it.
* `Toml.parse?`: the members of a whole document.
-/

namespace RobotProgram.Toml

/-! ## Blanks, comments, line ends -/

/-- The text after a comment, which goes up to the end of the line. -/
def skipComment : List Char → List Char
  | '#' :: rest => rest.dropWhile isPlain
  | text => text

/-- The text after the end of a line, before which blanks and a comment may stand. -/
def lineEnd? (text : List Char) : Option (List Char) :=
  match skipComment (skipBlank text) with
  | [] => some []
  | text => newline? text

/-- The text after blanks, comments and line breaks, which may stand between the items of an array. -/
def skipLines : Nat → List Char → List Char
  | 0, text => text
  | left + 1, text =>
    let text := skipBlank text
    match newline? (skipComment text) with
    | some rest => skipLines left rest
    | none => text

/-! ## Keys -/

def isKeyChar (c : Char) : Bool := c.isAlphanum || c = '_' || c = '-'

/-- One part of a key, bare or in quotation marks. -/
def keyPart? (text : List Char) : Option (String × List Char) :=
  match text with
  | '"' :: rest =>
    (lineString? '"' true (rest.length + 1) rest).map fun (cs, rest) => (String.ofList cs, rest)
  | '\'' :: rest =>
    (lineString? '\'' false (rest.length + 1) rest).map fun (cs, rest) => (String.ofList cs, rest)
  | text =>
    let cs := text.takeWhile isKeyChar
    if cs.isEmpty then none else some (String.ofList cs, text.drop cs.length)

/-- No more parts than this are read of a key. -/
def partLimit : Nat := 79

/-- A dotted key, by its first parts and its last. -/
def key? : Nat → List Char → Option (List String × String × List Char)
  | 0, _ => none
  | left + 1, text => do
    let (part, rest) ← keyPart? (skipBlank text)
    match skipBlank rest with
    | '.' :: rest =>
      let (path, last, rest) ← key? left rest
      some (part :: path, last, rest)
    | rest => some ([], part, rest)

/-- A key and the equals sign behind it. -/
def keyEquals? (text : List Char) : Option (List String × String × List Char) := do
  let (path, last, rest) ← key? partLimit text
  match rest with
  | '=' :: rest => some (path, last, skipBlank rest)
  | _ => none

/-! ## Values -/

/-- The items of an array and its closing bracket. -/
def arrayItems? (read : List Char → Option (Value × List Char)) :
    Nat → List Char → Option (List Value × List Char)
  | 0, _ => none
  | left + 1, text =>
    match skipLines text.length text with
    | ']' :: rest => some ([], rest)
    | text => do
      let (x, rest) ← read text
      match skipLines rest.length rest with
      | ',' :: rest =>
        let (xs, rest) ← arrayItems? read left rest
        some (x :: xs, rest)
      | ']' :: rest => some ([x], rest)
      | _ => none

/-- The members of an inline table, of which there is one more, and its closing brace. -/
def inlineMembers? (read : List Char → Option (Value × List Char)) :
    Nat → Table → List Char → Option (Table × List Char)
  | 0, _, _ => none
  | left + 1, table, text => do
    let (path, key, rest) ← keyEquals? text
    let (value, rest) ← read rest
    let table ← table.add? path key value
    match skipBlank rest with
    | ',' :: rest => inlineMembers? read left table rest
    | '\x7d' :: rest => some (table, rest)
    | _ => none

/-- A value, in which `depth` more arrays and inline tables may be nested. -/
def value? (depth : Nat) (text : List Char) : Option (Value × List Char) :=
  match text with
  | '"' :: rest => (quoted? '"' true rest).map fun (cs, rest) => (.string (String.ofList cs), rest)
  | '\'' :: rest =>
    (quoted? '\'' false rest).map fun (cs, rest) => (.string (String.ofList cs), rest)
  | '[' :: rest =>
    match depth with
    | 0 => none
    | depth + 1 =>
      (arrayItems? (value? depth) (rest.length + 1) rest).map fun (xs, rest) => (.array xs, rest)
  | '\x7b' :: rest =>
    match depth with
    | 0 => none
    | depth + 1 =>
      match skipBlank rest with
      | '\x7d' :: rest => some (.table [], rest)
      | rest =>
        (inlineMembers? (value? depth) (rest.length + 1) .empty rest).map fun (t, rest) =>
          (.table t.members, rest)
  | text => plainValue? text

/-- How deep arrays and inline tables may be nested. -/
def depthLimit : Nat := 79

/-! ## Documents -/

/-- What stands above values: nothing, the header of a table, or that of one more table of a list. -/
inductive Header where
  | top
  | table (path : List String) (key : String)
  | item (path : List String) (key : String)

/-- A header with the values below it, each under a dotted key. -/
structure Section where
  header : Header
  values : List (List String × String × Value)

/-- A line of a document. -/
inductive Line where
  | blank
  | header (header : Header)
  | value (path : List String) (key : String) (value : Value)

/-- The next line, and the text after its end. -/
def line? (text : List Char) : Option (Line × List Char) :=
  match skipBlank text with
  | '[' :: '[' :: rest => do
    let (path, key, rest) ← key? partLimit rest
    match rest with
    | ']' :: ']' :: rest => some (.header (.item path key), ← lineEnd? rest)
    | _ => none
  | '[' :: rest => do
    let (path, key, rest) ← key? partLimit rest
    match rest with
    | ']' :: rest => some (.header (.table path key), ← lineEnd? rest)
    | _ => none
  | text =>
    match lineEnd? text with
    | some rest => some (.blank, rest)
    | none => do
      let (path, key, rest) ← keyEquals? text
      let (value, rest) ← value? depthLimit rest
      some (.value path key value, ← lineEnd? rest)

/-- The sections of a text; `header` and `values` are the section begun, its values last first. -/
def sections? (header : Header) (values : List (List String × String × Value)) :
    Nat → List Char → Option (List Section)
  | 0, _ | _ + 1, [] => some [⟨header, values.reverse⟩]
  | left + 1, text => do
    match ← line? text with
    | (.blank, rest) => sections? header values left rest
    | (.value path key value, rest) => sections? header ((path, key, value) :: values) left rest
    | (.header next, rest) =>
      some (⟨header, values.reverse⟩ :: (← sections? next [] left rest))

/-- Adds values to a table. -/
def addAll? (table : Table) (values : List (List String × String × Value)) : Option Table :=
  values.foldlM (fun t (path, key, value) => t.add? path key value) table

/-- Adds a section to a document. -/
def addSection? (document : Table) (s : Section) : Option Table :=
  match s.header with
  | .top => addAll? document s.values
  | .table path key => document.open? path key (addAll? · s.values)
  | .item path key => document.append? path key (addAll? · s.values)

/-- The members of a whole document, before which a byte order mark may stand. -/
def parse? (text : String) : Option (List (String × Value)) := do
  let cs :=
    match text.toList with
    | '\ufeff' :: rest => rest
    | cs => cs
  let sections ← sections? .top [] cs.length cs
  let document ← sections.foldlM addSection? .empty
  some document.members

end RobotProgram.Toml
