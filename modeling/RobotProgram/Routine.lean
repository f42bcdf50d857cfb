import RobotProgram.Kind
import RobotProgram.Record
import RobotProgram.Roster

/-!
# Routines

A routine is the commands of one event, in order. Blocks nest; every command carries the depth at
which it stands, which one forward pass computes after each change of the order. While a script runs
the routine is locked and refuses changes.

## Main definitions

* `Command`: one step, with its kind, parameters, performing class and depth.
* `Routine`: the commands and the lock.
* `Routine.reindent`: the forward pass.
* `Routine.Edit`, `Routine.apply`: the operations that change a routine.
-/

namespace RobotProgram

/-- One step of a program. -/
structure Command where
  kind : CommandKind
  parameters : Parameters
  logic : String
  indent : Nat

namespace Command

/-- A command performed by the class of its kind. -/
def new (kind : CommandKind) (parameters : Parameters) : Command :=
  ⟨kind, parameters, kind.logic, 0⟩

/-- The command of a record, with the performing class that was saved. -/
def ofRecord (record : CommandRecord) : Except Fault Command :=
  match CommandKind.ofGui? record.typeGui with
  | some kind => .ok ⟨kind, record.parameters, record.typeLogic, 0⟩
  | none => .error (.unknownKind .command record.typeGui)

def toRecord (command : Command) : CommandRecord :=
  ⟨command.kind.gui, command.logic, command.parameters⟩

/-- Equality by value. -/
def same (a b : Command) : Bool :=
  a.kind == b.kind && sameParameters a.parameters b.parameters && a.logic == b.logic &&
    a.indent == b.indent

/-- The notice of a performing class that is not the one of the kind. -/
def logicNotices (record : CommandRecord) : List Notice :=
  match CommandKind.ofGui? record.typeGui with
  | some kind =>
    if record.typeLogic = kind.logic then []
    else [.commandLogicKept record.typeGui record.typeLogic kind.logic]
  | none => []

/-- The notices of reading records, up to the first that is refused. -/
def readingNotices : List CommandRecord → List Notice
  | [] => []
  | record :: rest =>
    match ofRecord record with
    | .ok _ => logicNotices record ++ readingNotices rest
    | .error _ => []

end Command

/-- The commands of one event. -/
structure Routine where
  commands : Roster Command
  locked : Bool

namespace Routine

def empty : Routine := ⟨.empty "command", false⟩

/-! ## Depth -/

/-- The depth of a command, from the depth that the ones before it leave. -/
def depthOf (depth : Nat) : Bracket → Nat
  | .closing => depth - 1
  | _ => depth

/-- The depth that a command leaves for the ones after it. -/
def depthAfter (depth : Nat) : Bracket → Nat
  | .opening => depth + 1
  | .closing => depth - 1
  | .plain => depth

/-- The depths of a sequence of commands: a closing bracket lines up with the opening one. -/
def depths : Nat → List Bracket → List Nat
  | _, [] => []
  | depth, b :: rest => depthOf depth b :: depths (depthAfter depth b) rest

/-- Stores the depth of every command in one forward pass. -/
def reindent (r : Routine) : Routine :=
  { r with
    commands := r.commands.visit
      (fun depth c =>
        (depthAfter depth c.kind.bracket, { c with indent := depthOf depth c.kind.bracket })) 0 }

/-! ## Views -/

/-- The handles and commands in order. -/
def entries (r : Routine) : List (Handle Command × Command) := r.commands.entries

def length (r : Routine) : Nat := r.commands.length

def indents (r : Routine) : List Nat := r.entries.map (·.2.indent)

/-- The records of the commands, in order. -/
def save (r : Routine) : List CommandRecord := r.entries.map (·.2.toRecord)

/-- The place of a command. -/
def position (r : Routine) (h : Handle Command) : Except Fault Nat :=
  match r.commands.position? h with
  | some i => .ok i
  | none => .error (r.commands.fault h)

def getAt? (r : Routine) (index : Nat) : Option (Handle Command × Command) := do
  let h ← r.commands.handleAt? index
  return (h, ← r.commands.find? h)

/-! ## Operations -/

/-- The outcome of a refusal while the routine is locked. -/
def refuse {ρ : Type} (r : Routine) (operation : String) (answer : ρ) : Outcome Routine ρ :=
  ⟨answer, r, [.routineLocked operation]⟩

/-- Puts a new command before the one at `index`, or at the end. -/
def insert (r : Routine) (kind : CommandKind) (parameters : Parameters) (index : Nat) :
    Outcome Routine (Option (Handle Command)) :=
  if r.locked then r.refuse "insert" none
  else
    let h := r.commands.nextHandle
    let commands := r.commands.registerAt index (.new kind parameters)
    ⟨some h, reindent { r with commands },
      [.commandAdded kind.gui h.id (min index r.length)]⟩

/-- Puts a new command at the end. -/
def add (r : Routine) (kind : CommandKind) (parameters : Parameters) :
    Outcome Routine (Option (Handle Command)) :=
  r.insert kind parameters r.length

/-- Removes a set of commands, or none of them when one is not registered. -/
def delete (r : Routine) (handles : List (Handle Command)) : Outcome Routine (Except Fault Nat) :=
  let handles := handles.eraseDups
  if handles.isEmpty then ⟨.ok 0, r, [.nothingSelected]⟩
  else if r.locked then r.refuse "delete_selected" (.ok 0)
  else
    match handles.find? (!r.commands.contains ·) with
    | some h => ⟨.error (r.commands.fault h), r, [r.commands.notice h]⟩
    | none =>
      ⟨.ok handles.length, reindent { r with commands := handles.foldl .remove r.commands },
        [.commandsDeleted handles.length]⟩

/-- Carries out a change of one command, which must be registered, unless the routine is locked. -/
def withCommand (r : Routine) (h : Handle Command) (operation : String) (change : Routine) :
    Outcome Routine (Except Fault Bool) :=
  if !r.commands.contains h then ⟨.error (r.commands.fault h), r, [r.commands.notice h]⟩
  else if r.locked then r.refuse operation (.ok false)
  else ⟨.ok true, change, []⟩

/-- Moves a command to `index` among the others, or to the end. -/
def move (r : Routine) (h : Handle Command) (index : Nat) :
    Outcome Routine (Except Fault Bool) :=
  r.withCommand h "move_command" (reindent { r with commands := r.commands.moveTo h index })

/-- Gives a command other parameters. -/
def update (r : Routine) (h : Handle Command) (parameters : Parameters) :
    Outcome Routine (Except Fault Bool) :=
  r.withCommand h "update_parameters"
    { r with commands := r.commands.modify h fun c => { c with parameters } }

/-- Replaces all commands by those of records, all of which must name known kinds. -/
def load (r : Routine) (records : List CommandRecord) : Outcome Routine (Except Fault Unit) :=
  match records.mapM Command.ofRecord with
  | .error fault => ⟨.error fault, r, Command.readingNotices records⟩
  | .ok commands =>
    (if r.locked then r.refuse "load_from" (.ok ())
    else
      ⟨.ok (), reindent { r with commands := commands.foldl .register r.commands.clear },
        [.commandsLoaded commands.length]⟩).after (Command.readingNotices records)

/-- The routine of records. -/
def ofRecords (records : List CommandRecord) : Except Fault Routine :=
  let outcome := empty.load records
  outcome.answer.map fun _ => outcome.state

/-- The notices of making a routine of records. -/
def recordsNotices (records : List CommandRecord) : List Notice := (empty.load records).notices

/-- The operations that change a routine. -/
inductive Edit where
  | add (kind : CommandKind) (parameters : Parameters)
  | insert (kind : CommandKind) (parameters : Parameters) (index : Nat)
  | delete (handles : List (Handle Command))
  | move (h : Handle Command) (index : Nat)
  | update (h : Handle Command) (parameters : Parameters)
  | reindent
  | load (records : List CommandRecord)
  | lock (on : Bool)

/-- What an operation answers when it is carried out or refused. -/
inductive Reply where
  | added (h : Option (Handle Command))
  | deleted (count : Nat)
  | changed (done : Bool)
  | done

/-- Carries out an operation. -/
def apply (r : Routine) : Edit → Outcome Routine (Except Fault Reply)
  | .add kind parameters => (r.add kind parameters).map (.ok ∘ .added)
  | .insert kind parameters index => (r.insert kind parameters index).map (.ok ∘ .added)
  | .delete handles => (r.delete handles).map (.map .deleted)
  | .move h index => (r.move h index).map (.map .changed)
  | .update h parameters => (r.update h parameters).map (.map .changed)
  | .reindent => ⟨.ok .done, r.reindent, []⟩
  | .load records => (r.load records).map (.map fun _ => .done)
  | .lock on => ⟨.ok .done, { r with locked := on }, []⟩

/-- The routine after a sequence of operations. -/
def run (r : Routine) (edits : List Edit) : Routine := edits.foldl (fun r e => (r.apply e).state) r

end Routine

end RobotProgram
