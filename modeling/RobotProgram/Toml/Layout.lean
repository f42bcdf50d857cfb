import RobotProgram.Toml.Basic

/-!
# Records in TOML

A layout describes a record by its fields. A record is written as a table, with further members
ignored, or as the list of its fields in the order of the layout, with further items ignored.

## Main definitions

* `Toml.Value.natural?`, `string?`, `boolean?`, `list?`: reading plain values.
* `Toml.Layout`: the fields of a record; `Toml.Layout.read?` reads it.
-/

namespace RobotProgram.Toml

/-! ## Plain values -/

namespace Value

/-- The natural of a number; floats are none, whole or not. -/
def natural? : Value → Option Nat
  | .integer i => if 0 ≤ i then some i.toNat else none
  | _ => none

def string? : Value → Option String
  | .string s => some s
  | _ => none

def boolean? : Value → Option Bool
  | .boolean b => some b
  | _ => none

def list? {α : Type} (read? : Value → Option α) : Value → Option (List α)
  | .array items => items.mapM read?
  | _ => none

end Value

/-! ## Records -/

/-- Whether a field may be missing: an optional one from a table only, a defaulted one always. -/
inductive Presence where
  | required | optional | defaulted
  deriving DecidableEq

/-- One field of a record: its name, whether it may be missing, and how it is put into the record. -/
structure Field (ρ : Type) where
  name : String
  presence : Presence
  read? : Value → Option (ρ → ρ)

/-- A record by its fields; `blank` has the values of fields that are missing. -/
structure Layout (ρ : Type) where
  fields : List (Field ρ)
  blank : ρ

namespace Layout

variable {ρ : Type}

/-- Puts the member that a field names into a record. -/
def putMember? (members : List (String × Value)) (record : ρ) (field : Field ρ) : Option ρ :=
  match members.lookup field.name with
  | some value => (field.read? value).map (· record)
  | none => if field.presence = .required then none else some record

/-- The record of the members of a table. -/
def ofMembers? (layout : Layout ρ) (members : List (String × Value)) : Option ρ :=
  layout.fields.foldlM (putMember? members) layout.blank

/-- Puts the items of a list into fields in order. -/
def ofItems? : List (Field ρ) → ρ → List Value → Option ρ
  | [], record, _ => some record
  | field :: fields, record, [] =>
    if field.presence = .defaulted then ofItems? fields record [] else none
  | field :: fields, record, value :: values => do
    let put ← field.read? value
    ofItems? fields (put record) values

/-- Reads a record. A date counts as a table none of whose members is a field. -/
def read? (layout : Layout ρ) : Value → Option ρ
  | .table members => layout.ofMembers? members
  | .array items => ofItems? layout.fields layout.blank items
  | .date _ => layout.ofMembers? []
  | _ => none

end Layout

end RobotProgram.Toml
