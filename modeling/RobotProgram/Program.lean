import RobotProgram.Routine

/-!
# Programs

A program is a list of events, each with the routine that it starts. No two events have one kind and
equal parameters, and an event without parameters is only added when its kind has none yet. At most
one event is selected. While a script runs the program and all its routines are locked.

## Main definitions

* `Event`: a trigger with its routine.
* `Program`: the events, the selection and the lock.
* `Program.duplicate?`: the event that a new one would duplicate.
* `Program.Edit`, `Program.apply`: the operations that change a program.
-/

namespace RobotProgram

/-- A trigger and the routine that it starts. -/
structure Event where
  kind : EventKind
  parameters : Parameters
  logic : String
  routine : Routine

namespace Event

/-- An event implemented by the class of its kind. -/
def new (kind : EventKind) (parameters : Parameters) (routine : Routine) : Event :=
  ⟨kind, parameters, kind.logic, routine⟩

/-- Whether an event of this kind with these parameters would duplicate this one. -/
def conflicts (event : Event) (kind : EventKind) (parameters : Parameters) : Bool :=
  event.kind == kind && (parameters.isNone || sameParameters event.parameters parameters)

def toRecord (event : Event) : EventRecord :=
  ⟨event.kind.gui, event.logic, event.parameters, event.routine.save⟩

/-- The event of a record, with the implementing class that was saved. -/
def ofRecord (record : EventRecord) : Except Fault Event :=
  match EventKind.ofGui? record.typeGui with
  | none => .error (.unknownKind .event record.typeGui)
  | some kind =>
    (Routine.ofRecords record.commandList).map fun routine =>
      ⟨kind, record.parameters, record.typeLogic, routine⟩

/-- The notices of making an event of a record. -/
def recordNotices (record : EventRecord) : List Notice :=
  match EventKind.ofGui? record.typeGui with
  | none => []
  | some kind =>
    (if record.typeLogic = kind.logic then []
      else [Notice.eventLogicKept record.typeGui record.typeLogic kind.logic])
      ++ Routine.recordsNotices record.commandList

/-- The notices of reading records, up to the first that is refused. -/
def readingNotices : List EventRecord → List Notice
  | [] => []
  | record :: rest =>
    recordNotices record ++
      match ofRecord record with
      | .ok _ => readingNotices rest
      | .error _ => []

end Event

/-- What comes of asking to delete an event. -/
inductive Deletion where
  | deleted (h : Handle Event)
  | noSelection
  | declined
  | locked
  deriving DecidableEq

/-- What comes of asking to change the kind of an event. -/
inductive Replacement where
  | replaced
  | duplicate
  | locked
  deriving DecidableEq

/-- Events in order, the selected one, and the lock. -/
structure Program where
  events : Roster Event
  selected : Option (Handle Event)
  locked : Bool

namespace Program

def empty : Program := ⟨.empty "event", none, false⟩

/-! ## Views -/

/-- The handles and events in order. -/
def entries (p : Program) : List (Handle Event × Event) := p.events.entries

def length (p : Program) : Nat := p.events.length

/-- The records of the events, in order. -/
def save (p : Program) : List EventRecord := p.entries.map (·.2.toRecord)

def getAt? (p : Program) (index : Nat) : Option (Handle Event × Event) := do
  let h ← p.events.handleAt? index
  return (h, ← p.events.find? h)

/-- The selected event. -/
def selectedEvent? (p : Program) : Option Event := p.selected.bind p.events.find?

/-- How many commands all routines have together. -/
def commandCount (p : Program) : Nat :=
  p.entries.foldl (fun count entry => count + entry.2.routine.length) 0

/-- The size of a program in words. -/
def summary (p : Program) : String :=
  toString p.length ++ " event(s), " ++ toString p.commandCount ++ " command(s)"

/-- The first event, other than `excluding`, that an event of this kind would duplicate. -/
def duplicate? (p : Program) (kind : EventKind) (parameters : Parameters)
    (excluding : Option (Handle Event)) : Option (Handle Event) :=
  (p.entries.find? fun entry =>
    decide (some entry.1 ≠ excluding) && entry.2.conflicts kind parameters).map (·.1)

/-! ## Adding -/

/-- The outcome of a refusal while the program is locked. -/
def refuse {ρ : Type} (p : Program) (operation : String) (answer : ρ) : Outcome Program ρ :=
  ⟨answer, p, [.programLocked operation]⟩

/-- Adds an event at the end and selects it, unless it would duplicate one. -/
def addEvent (p : Program) (event : Event) : Outcome Program (Option (Handle Event)) :=
  match p.duplicate? event.kind event.parameters none with
  | some existing => ⟨none, p, [.eventExists event.kind.gui existing.id]⟩
  | none =>
    let h := p.events.nextHandle
    ⟨some h, { p with events := p.events.register event, selected := some h },
      [.eventAdded event.kind.gui h.id]⟩

/-- Adds a new event whose routine is read from records. -/
def add (p : Program) (kind : EventKind) (parameters : Parameters)
    (records : List CommandRecord) : Outcome Program (Except Fault (Option (Handle Event))) :=
  if p.locked then p.refuse "add" (.ok none)
  else
    let notices := Routine.recordsNotices records
    match Routine.ofRecords records with
    | .error fault => ⟨.error fault, p, notices⟩
    | .ok routine =>
      let o := p.addEvent (.new kind parameters routine)
      ⟨.ok o.answer, o.state, notices ++ o.notices⟩

/-- Adds events in turn. -/
def addEvents (p : Program) : List Event → Program
  | [] => p
  | event :: rest => (p.addEvent event).state.addEvents rest

def addingNotices (p : Program) : List Event → List Notice
  | [] => []
  | event :: rest => (p.addEvent event).notices ++ (p.addEvent event).state.addingNotices rest

/--
Replaces all events by those of records, all of which must name known kinds; duplicates are dropped.
Afterwards the first event or none is selected.
-/
def load (p : Program) (records : List EventRecord) (selectFirst : Bool) :
    Outcome Program (Except Fault Unit) :=
  match records.mapM Event.ofRecord with
  | .error fault => ⟨.error fault, p, Event.readingNotices records⟩
  | .ok events =>
    (if p.locked then p.refuse "load_from" (.ok ())
    else
      let cleared := { p with events := p.events.clear }
      let full := cleared.addEvents events
      ⟨.ok (), { full with selected := if selectFirst then full.events.handleAt? 0 else none },
        cleared.addingNotices events ++ [.eventsLoaded full.length records.length]⟩).after
      (Event.readingNotices records)

/-! ## Deleting -/

/-- The outcome of a deletion, and the questions that were asked. -/
abbrev DeletionOutcome := Outcome Program (Except Fault (Deletion × List String))

/-- Takes an event away, and with it the selection if it was selected. -/
def removeEvent (p : Program) (h : Handle Event) : Program :=
  { p with
    events := p.events.remove h
    selected := if p.selected = some h then none else p.selected }

/--
Deletes an event, provided that some event is selected. Before an event that has commands is deleted,
`question` is asked, to which `answer` is the answer.
-/
def delete (p : Program) (h : Handle Event) (answer : Bool) (question : String) :
    DeletionOutcome :=
  if p.selected.isNone then ⟨.ok (.noSelection, []), p, [.noSelection "delete"]⟩
  else
    match p.events.find? h with
    | none => ⟨.error (p.events.fault h), p, [p.events.notice h]⟩
    | some event =>
      if p.locked then p.refuse "delete" (.ok (.locked, []))
      else
        let asks := event.routine.length ≠ 0
        let asked := if asks then [question] else []
        let notices := if asks then [Notice.answered question answer] else []
        if asks ∧ ¬ answer then
          ⟨.ok (.declined, asked), p, notices ++ [.deletionDeclined h.id]⟩
        else
          ⟨.ok (.deleted h, asked), p.removeEvent h,
            notices ++ [.eventDeleted event.kind.gui h.id event.routine.length]⟩

/-- Deletes the selected event. -/
def deleteSelected (p : Program) (answer : Bool) (question : String) : DeletionOutcome :=
  match p.selected with
  | some h => p.delete h answer question
  | none => ⟨.ok (.noSelection, []), p, [.noSelection "delete_selected"]⟩

/-! ## Replacing -/

/--
Gives an event another kind and other parameters, in place and with its routine, unless it would
then duplicate another event.
-/
def replace (p : Program) (h : Handle Event) (kind : EventKind) (parameters : Parameters) :
    Outcome Program (Except Fault Replacement) :=
  match p.events.find? h with
  | none => ⟨.error (p.events.fault h), p, [p.events.notice h]⟩
  | some event =>
    if p.locked then p.refuse "replace" (.ok .locked)
    else
      match p.duplicate? kind parameters (some h) with
      | some existing =>
        ⟨.ok .duplicate, p, [.replacementExists kind.gui existing.id h.id]⟩
      | none =>
        ⟨.ok .replaced,
          { p with events := p.events.modify h fun e => .new kind parameters e.routine },
          [.eventReplaced event.kind.gui h.id kind.gui]⟩

/-! ## Selecting and locking -/

def select (p : Program) (h : Handle Event) : Outcome Program (Except Fault Unit) :=
  if p.events.contains h then ⟨.ok (), { p with selected := some h }, []⟩
  else ⟨.error (p.events.fault h), p, [p.events.notice h]⟩

/-- Selects the event at a place, if there is one. -/
def selectAt (p : Program) (index : Nat) : Outcome Program Bool :=
  match p.events.handleAt? index with
  | some h => ⟨true, { p with selected := some h }, []⟩
  | none => ⟨false, p, []⟩

def clearSelection (p : Program) : Program := { p with selected := none }

/-- Locks or unlocks the program and all its routines. -/
def setLock (p : Program) (on : Bool) : Program :=
  { p with
    locked := on
    events := p.events.mapObjects fun e => { e with routine := { e.routine with locked := on } } }

/-! ## Commands -/

/-- Stores the routine of an event. -/
def setRoutine (p : Program) (h : Handle Event) (routine : Routine) : Program :=
  { p with events := p.events.modify h fun e => { e with routine } }

/-- Carries out an operation on the routine of an event. -/
def inEvent (p : Program) (h : Handle Event) (edit : Routine.Edit) :
    Outcome Program (Except Fault Routine.Reply) :=
  match p.events.find? h with
  | none => ⟨.error (p.events.fault h), p, [p.events.notice h]⟩
  | some event => (event.routine.apply edit).lift (p.setRoutine h)

/-! ## Operations -/

/-- The operations that change a program. -/
inductive Edit where
  | add (kind : EventKind) (parameters : Parameters) (records : List CommandRecord)
  | delete (h : Handle Event) (answer : Bool) (question : String)
  | deleteSelected (answer : Bool) (question : String)
  | replace (h : Handle Event) (kind : EventKind) (parameters : Parameters)
  | select (h : Handle Event)
  | selectAt (index : Nat)
  | clearSelection
  | load (records : List EventRecord) (selectFirst : Bool)
  | lock (on : Bool)
  | inEvent (h : Handle Event) (edit : Routine.Edit)

/-- What an operation answers when it is carried out or refused. -/
inductive Reply where
  | added (h : Option (Handle Event))
  | deletion (outcome : Deletion) (asked : List String)
  | replacement (outcome : Replacement)
  | selected (done : Bool)
  | routine (reply : Routine.Reply)
  | done

/-- Carries out an operation. -/
def apply (p : Program) : Edit → Outcome Program (Except Fault Reply)
  | .add kind parameters records => (p.add kind parameters records).map (.map .added)
  | .delete h answer question => (p.delete h answer question).map (.map fun r => .deletion r.1 r.2)
  | .deleteSelected answer question =>
    (p.deleteSelected answer question).map (.map fun r => .deletion r.1 r.2)
  | .replace h kind parameters => (p.replace h kind parameters).map (.map .replacement)
  | .select h => (p.select h).map (.map fun _ => .done)
  | .selectAt index => (p.selectAt index).map (.ok ∘ .selected)
  | .clearSelection => ⟨.ok .done, p.clearSelection, []⟩
  | .load records selectFirst => (p.load records selectFirst).map (.map fun _ => .done)
  | .lock on => ⟨.ok .done, p.setLock on, [.programLock on]⟩
  | .inEvent h edit => (p.inEvent h edit).map (.map .routine)

/-- The program after a sequence of operations. -/
def run (p : Program) (edits : List Edit) : Program := edits.foldl (fun p e => (p.apply e).state) p

end Program

end RobotProgram
