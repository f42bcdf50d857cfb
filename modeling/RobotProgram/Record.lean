import RobotProgram.Json.Format
import RobotProgram.Fault

/-!
# Save records

A program is saved as a list of event records, each with the records of its commands. A record
names its kind in two ways and carries the parameters; names are not checked here.

## Main definitions

* `CommandRecord`, `EventRecord`: one saved command, one saved event.
* `EventRecord.same`: equality of records by value.
* `SaveFile.write`, `SaveFile.read`: records as a text, and back.
-/

namespace RobotProgram

/-- One saved command. -/
structure CommandRecord where
  typeGui : String
  typeLogic : String
  parameters : Parameters

/-- One saved event with its commands, in order. -/
structure EventRecord where
  typeGui : String
  typeLogic : String
  parameters : Parameters
  commandList : List CommandRecord

/-! ## Equality by value -/

def CommandRecord.same (a b : CommandRecord) : Bool :=
  a.typeGui == b.typeGui && a.typeLogic == b.typeLogic && sameParameters a.parameters b.parameters

/-- Equality of lists, item by item. -/
def sameList {α : Type} (same : α → α → Bool) : List α → List α → Bool
  | [], [] => true
  | x :: xs, y :: ys => same x y && sameList same xs ys
  | _, _ => false

def EventRecord.same (a b : EventRecord) : Bool :=
  a.typeGui == b.typeGui && a.typeLogic == b.typeLogic &&
    sameParameters a.parameters b.parameters &&
    sameList CommandRecord.same a.commandList b.commandList

/-! ## Writing -/

def CommandRecord.toJson (record : CommandRecord) : Json :=
  .object [("typeGUI", .string record.typeGui), ("typeLogic", .string record.typeLogic),
    ("parameters", record.parameters.toJson)]

def EventRecord.toJson (record : EventRecord) : Json :=
  .object [("typeGUI", .string record.typeGui), ("typeLogic", .string record.typeLogic),
    ("parameters", record.parameters.toJson),
    ("commandList", .array (record.commandList.map CommandRecord.toJson))]

/-! ## Reading -/

/-- The parameters and the commands of a record may be missing. -/
def CommandRecord.layout : Json.Layout CommandRecord where
  name := "CommandRecord"
  fields :=
    [⟨"typeGUI", true, Json.Format.string.map fun s r => { r with typeGui := s }⟩,
      ⟨"typeLogic", true, Json.Format.string.map fun s r => { r with typeLogic := s }⟩,
      ⟨"parameters", false, Json.Format.bag.optional.map fun p r => { r with parameters := p }⟩]
  blank := ⟨"", "", none⟩

def EventRecord.layout : Json.Layout EventRecord where
  name := "EventRecord"
  fields :=
    [⟨"typeGUI", true, Json.Format.string.map fun s r => { r with typeGui := s }⟩,
      ⟨"typeLogic", true, Json.Format.string.map fun s r => { r with typeLogic := s }⟩,
      ⟨"parameters", false, Json.Format.bag.optional.map fun p r => { r with parameters := p }⟩,
      ⟨"commandList", false,
        CommandRecord.layout.format.list.map fun cs r => { r with commandList := cs }⟩]
  blank := ⟨"", "", none, []⟩

def CommandRecord.format : Json.Format CommandRecord := CommandRecord.layout.format
def EventRecord.format : Json.Format EventRecord := EventRecord.layout.format

/-! ## Texts -/

namespace SaveFile

/-- The text of a saved program. -/
def write (records : List EventRecord) : String :=
  String.ofList ((Json.array (records.map EventRecord.toJson)).pretty 0)

/-- The records of a saved program. -/
def read (text : String) : Except Fault (List EventRecord) :=
  (EventRecord.format.list.readText text).mapError .json

end SaveFile

end RobotProgram
