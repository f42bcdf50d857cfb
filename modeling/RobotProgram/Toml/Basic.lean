/-!
# TOML values and tables

While a document is read, a table remembers how it came about, because that decides what may be added
to it: a table that only stands above others may still get a header of its own, one that arose from a
dotted key may only grow by dotted keys.

## Main definitions

* `Toml.Value`: values.
* `Toml.Table`: tables under construction.
* `Toml.Table.add?`: a table with one more value under a dotted key.
* `Toml.Table.open?`, `Toml.Table.append?`: a table with one more table under a header.
-/

namespace RobotProgram.Toml

/-- A value. Floats and dates are kept as they were written. -/
inductive Value where
  | string (value : String)
  | integer (value : Int)
  | float (text : String)
  | boolean (value : Bool)
  | date (text : String)
  | array (items : List Value)
  | table (members : List (String × Value))

mutual

/-- A table under construction: whether it has had no header yet, whether it arose from a dotted key,
and what it holds. -/
inductive Table where
  | mk (implicit dotted : Bool) (entries : List (String × Entry))

inductive Entry where
  | value (value : Value)
  | table (table : Table)
  | tables (tables : List Table)

end

/-! ## Finished tables -/

mutual

def Table.members : Table → List (String × Value)
  | .mk _ _ entries => entriesMembers entries

def Entry.finish : Entry → Value
  | .value v => v
  | .table t => .table t.members
  | .tables ts => .array (tablesItems ts)

def entriesMembers : List (String × Entry) → List (String × Value)
  | [] => []
  | (key, entry) :: rest => (key, entry.finish) :: entriesMembers rest

def tablesItems : List Table → List Value
  | [] => []
  | t :: ts => .table t.members :: tablesItems ts

end

namespace Table

/-- The table of a header, or of a document, before anything is added. -/
def empty : Table := .mk false false []

/-- A table that stands above another one. -/
def above (dotted : Bool) : Table := .mk true dotted []

def isImplicit : Table → Bool
  | .mk implicit _ _ => implicit

def isDotted : Table → Bool
  | .mk _ dotted _ => dotted

def entries : Table → List (String × Entry)
  | .mk _ _ entries => entries

def find? (t : Table) (key : String) : Option Entry := t.entries.lookup key

/-- Puts an entry under a key, instead of the one that is there. -/
def put (t : Table) (key : String) (entry : Entry) : Table :=
  .mk t.isImplicit t.isDotted (t.entries.filter (·.1 != key) ++ [(key, entry)])

/-- The table with a header of its own. -/
def named : Table → Table
  | .mk _ _ entries => .mk false false entries

/--
Changes the table at the end of a path; tables on the way that are missing are made. Of a list of
tables the path leads through the last. A dotted path does not lead into tables with a header.
-/
def update? (dotted : Bool) (change : Table → Option Table) : List String → Table → Option Table
  | [], t => change t
  | key :: path, t =>
    match t.find? key with
    | none => (update? dotted change path (above dotted)).map fun child => t.put key (.table child)
    | some (.value _) => none
    | some (.tables ts) =>
      match ts.getLast? with
      | none => none
      | some last =>
        (update? dotted change path last).map fun child =>
          t.put key (.tables (ts.dropLast ++ [child]))
    | some (.table child) =>
      if dotted && !child.isImplicit then none
      else (update? dotted change path child).map fun child => t.put key (.table child)

/-- Adds a value under a dotted key, given by its path and its last part; no key may be there twice. -/
def add? (t : Table) (path : List String) (key : String) (value : Value) : Option Table :=
  update? true
    (fun t =>
      if t.isDotted == path.isEmpty || (t.find? key).isSome then none
      else some (t.put key (.value value)))
    path t

/-- Opens the table of a header and lets `fill` add to it. It may have stood above others before. -/
def open? (t : Table) (path : List String) (key : String) (fill : Table → Option Table) :
    Option Table :=
  update? false
    (fun t =>
      match t.find? key with
      | none => (fill empty).map fun child => t.put key (.table child)
      | some (.table child) =>
        if child.isImplicit && !child.isDotted then
          (fill child.named).map fun child => t.put key (.table child)
        else none
      | some _ => none)
    path t

/-- Appends a table to the list of tables of a header and lets `fill` add to it. -/
def append? (t : Table) (path : List String) (key : String) (fill : Table → Option Table) :
    Option Table :=
  update? false
    (fun t =>
      match t.find? key with
      | none => (fill empty).map fun child => t.put key (.tables [child])
      | some (.tables ts) => (fill empty).map fun child => t.put key (.tables (ts ++ [child]))
      | some _ => none)
    path t

end Table

end RobotProgram.Toml
