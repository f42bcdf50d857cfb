import RobotProgram.Projector
import RobotProgram.Settings

/-!
# The editor

The editor ties a program to its projector and to what is on display. It routes the buttons to the
program, asks for parameters and confirmations, shows the routine of the selected event, and switches
between editing and script mode, in which the program is locked and highlighted.

Questions to the user are functions from what is asked to the answer; every operation says what it
has asked.

## Main definitions

* `Editor`: settings, program, projector, interpreter, displayed event and mode.
* `Editor.Step`, `Editor.apply`: what can be done with it.
-/

namespace RobotProgram

/-- The answer of a dialog for parameters. -/
inductive DialogAnswer where
  | accepted (parameters : Parameters)
  | rejected

/-- A dialog for the parameters of a command, which shows the ones that it has. -/
abbrev Dialog := CommandKind → Parameters → DialogAnswer

/-- What a dialog was opened with. -/
abbrev DialogOpening := CommandKind × Parameters

/-- A kind of event with parameters, as chosen in the picker. -/
structure EventChoice where
  kind : EventKind
  parameters : Parameters

/-- An editor over an interpreter of some type. -/
structure Editor (ι : Type) where
  settings : EngineSettings
  program : Program
  projector : Projector
  interpreter : ι
  displayed : Option (Handle Event)
  scriptMode : Bool

namespace Editor

variable {ι : Type}

/-- An editor of an empty program. -/
def new (settings : EngineSettings) (interpreter : ι) : Editor ι :=
  ⟨settings, .empty, .new settings.pollInterval, interpreter, none, false⟩

/-! ## Views -/

/-- The routine on display. -/
def displayedRoutine? (e : Editor ι) : Option Routine :=
  (e.displayed.bind e.program.events.find?).map (·.routine)

def save (e : Editor ι) : List EventRecord := e.program.save

/-! ## Display -/

/-- Displays the selected event. -/
def refresh (e : Editor ι) : Editor ι := { e with displayed := e.program.selected }

/-- The notices of displaying what is selected in a program. -/
def refreshNotices (program : Program) : List Notice :=
  if program.selected.isNone then [.nothingDisplayed] else []

/-- The outcome of an operation on the program, after which the selected event is displayed. -/
def refreshed {ρ : Type} (e : Editor ι) (o : Outcome Program ρ) : Outcome (Editor ι) ρ :=
  ⟨o.answer, refresh { e with program := o.state }, o.notices ++ refreshNotices o.state⟩

/-- As `refreshed`, but a fault leaves the display as it is. -/
def refreshedUnlessFault {ρ : Type} (e : Editor ι) (o : Outcome Program (Except Fault ρ)) :
    Outcome (Editor ι) (Except Fault ρ) :=
  match o.answer with
  | .ok _ => e.refreshed o
  | .error fault => ⟨.error fault, { e with program := o.state }, o.notices⟩

/-! ## Events -/

/-- Adds an event without commands and displays it. -/
def addEvent (e : Editor ι) (kind : EventKind) (parameters : Parameters) :
    Outcome (Editor ι) (Option (Handle Event)) :=
  (e.refreshed (e.program.add kind parameters [])).map fun
    | .ok h => h
    | .error _ => none

/-- Adds the event that was chosen in the picker. -/
def promptAddEvent (e : Editor ι) (choice : Option EventChoice) :
    Outcome (Editor ι) (Option (Handle Event)) :=
  match choice with
  | some c => e.addEvent c.kind c.parameters
  | none => ⟨none, e, [.pickerDismissed]⟩

def selectEvent (e : Editor ι) (h : Handle Event) : Outcome (Editor ι) (Except Fault Unit) :=
  e.refreshedUnlessFault (e.program.select h)

def clearSelection (e : Editor ι) : Outcome (Editor ι) Unit :=
  e.refreshed ⟨(), e.program.clearSelection, []⟩

/-- Deletes the selected event; `answer` is the answer if confirmation is asked for. -/
def deleteSelectedEvent (e : Editor ι) (answer : Bool) :
    Outcome (Editor ι) (Except Fault (Deletion × List String)) :=
  e.refreshedUnlessFault (e.program.deleteSelected answer e.settings.deleteQuestion)

/--
Gives the selected event the kind and parameters chosen in the picker. Also answers how often the
picker was opened.
-/
def replaceSelectedEvent (e : Editor ι) (choice : Option EventChoice) :
    Outcome (Editor ι) (Except Fault (Option Replacement) × Nat) :=
  match e.program.selected with
  | none => ⟨(.ok none, 0), e, [.selectToChange]⟩
  | some h =>
    match choice with
    | none => ⟨(.ok none, 1), e, [.pickerDismissed]⟩
    | some c =>
      (e.refreshedUnlessFault (e.program.replace h c.kind c.parameters)).map fun answer =>
        (answer.map some, 1)

/-! ## Commands of the displayed event -/

/-- The outcome of an operation on the routine of an event. -/
def inEvent {ρ : Type} (e : Editor ι) (h : Handle Event) (o : Outcome Routine ρ) :
    Outcome (Editor ι) ρ :=
  o.lift fun routine => { e with program := e.program.setRoutine h routine }

/-- Handle and routine of the displayed event. -/
def displayedEntry? (e : Editor ι) : Option (Handle Event × Routine) := do
  let h ← e.displayed
  return (h, (← e.program.events.find? h).routine)

/-- Puts a new command into the displayed routine, with parameters from the dialog. -/
def dropCommand (e : Editor ι) (kind : CommandKind) (index : Nat) (dialog : Dialog) :
    Outcome (Editor ι) (Option (Handle Command) × List DialogOpening) :=
  if e.displayed.isNone then ⟨(none, []), e, [.addWithoutEvent kind.gui]⟩
  else if e.program.locked then ⟨(none, []), e, [.addWhileRunning kind.gui]⟩
  else
    match dialog kind none with
    | .rejected => ⟨(none, [(kind, none)]), e, [.promptRejected kind.gui]⟩
    | .accepted parameters =>
      match e.displayedEntry? with
      | none => ⟨(none, [(kind, none)]), e, []⟩
      | some (h, routine) =>
        (e.inEvent h (routine.insert kind parameters index)).map fun c => (c, [(kind, none)])

/-- Puts a new command at the end of the displayed routine. -/
def addCommand (e : Editor ι) (kind : CommandKind) (dialog : Dialog) :
    Outcome (Editor ι) (Option (Handle Command) × List DialogOpening) :=
  e.dropCommand kind ((e.displayedRoutine?.map Routine.length).getD 0) dialog

/-- Opens the dialog of a command again, and stores what is accepted. -/
def editCommand (e : Editor ι) (c : Handle Command) (dialog : Dialog) :
    Outcome (Editor ι) (Except Fault Bool × List DialogOpening) :=
  match e.displayedEntry? with
  | none => ⟨(.ok false, []), e, [.editWithoutEvent c.id]⟩
  | some (h, routine) =>
    match routine.commands.find? c with
    | none => ⟨(.error (routine.commands.fault c), []), e, [routine.commands.notice c]⟩
    | some command =>
      if e.program.locked then ⟨(.ok false, []), e, [.editWhileRunning c.id]⟩
      else
        let opening := [(command.kind, command.parameters)]
        match dialog command.kind command.parameters with
        | .rejected => ⟨(.ok false, opening), e, []⟩
        | .accepted parameters =>
          (e.inEvent h (routine.update c parameters)).map fun answer => (answer, opening)

def deleteCommands (e : Editor ι) (handles : List (Handle Command)) :
    Outcome (Editor ι) (Except Fault Nat) :=
  match e.displayedEntry? with
  | none => ⟨.ok 0, e, [.deleteWithoutEvent]⟩
  | some (h, routine) => e.inEvent h (routine.delete handles)

def moveCommand (e : Editor ι) (c : Handle Command) (index : Nat) :
    Outcome (Editor ι) (Except Fault Bool) :=
  match e.displayedEntry? with
  | none => ⟨.ok false, e, [.moveWithoutEvent c.id]⟩
  | some (h, routine) => e.inEvent h (routine.move c index)

/-! ## Script mode -/

/--
Enters or leaves script mode: entering locks the program and starts the projector, leaving unlocks it,
stops the projector and puts everything out.
-/
def setScriptMode (e : Editor ι) (on : Bool) : Outcome (Editor ι) Unit :=
  let o := if on then e.projector.start else e.projector.stop
  ⟨(), { e with scriptMode := on, program := e.program.setLock on, projector := o.state },
    [.programLock on] ++ o.notices ++ [.scriptMode on]⟩

/-- Lets the projector look at its ticker once. -/
def pump [StatusSource ι] (e : Editor ι) : Outcome (Editor ι) Bool :=
  (e.projector.poll e.program e.interpreter).lift fun (projector, interpreter) =>
    { e with projector, interpreter }

/-- Makes ticks of the projector due. -/
def fire (e : Editor ι) (times : Nat) : Editor ι :=
  { e with projector := e.projector.fire times }

/-! ## Loading -/

/-- Replaces the program, but not in script mode. -/
def load (e : Editor ι) (records : List EventRecord) : Outcome (Editor ι) (Except Fault Unit) :=
  if e.scriptMode then ⟨.ok (), e, [.loadWhileRunning]⟩
  else e.refreshedUnlessFault (e.program.load records e.settings.selectFirst)

/-! ## Steps -/

/-- What can be done with an editor; what happens outside is among it. -/
inductive Step (ι : Type) where
  | addEvent (kind : EventKind) (parameters : Parameters)
  | promptAddEvent (choice : Option EventChoice)
  | selectEvent (h : Handle Event)
  | clearSelection
  | refresh
  | deleteEvent (answer : Bool)
  | replaceEvent (choice : Option EventChoice)
  | addCommand (kind : CommandKind) (dialog : Dialog)
  | dropCommand (kind : CommandKind) (index : Nat) (dialog : Dialog)
  | editCommand (c : Handle Command) (dialog : Dialog)
  | deleteCommands (handles : List (Handle Command))
  | moveCommand (c : Handle Command) (index : Nat)
  | scriptMode (on : Bool)
  | load (records : List EventRecord)
  /-- Ticks become due. -/
  | fire (times : Nat)
  /-- The interpreter changes. -/
  | interpreter (change : ι → ι)
  | pump

/-- What a step answers, with what was asked. -/
inductive Reply where
  | event (h : Option (Handle Event)) (openings : Nat)
  | deletion (outcome : Deletion) (asked : List String)
  | replacement (outcome : Option Replacement) (openings : Nat)
  | command (h : Option (Handle Command)) (openings : List DialogOpening)
  | edited (stored : Bool) (openings : List DialogOpening)
  | deleted (count : Nat)
  | moved (done : Bool)
  | pumped (projected : Bool)
  | done

/-- Carries out a step. -/
def apply [StatusSource ι] (e : Editor ι) : Step ι → Outcome (Editor ι) (Except Fault Reply)
  | .addEvent kind parameters => (e.addEvent kind parameters).map fun h => .ok (.event h 0)
  | .promptAddEvent choice => (e.promptAddEvent choice).map fun h => .ok (.event h 1)
  | .selectEvent h => (e.selectEvent h).map (.map fun _ => .done)
  | .clearSelection => e.clearSelection.map fun _ => .ok .done
  | .refresh => ⟨.ok .done, e.refresh, refreshNotices e.program⟩
  | .deleteEvent answer => (e.deleteSelectedEvent answer).map (.map fun r => .deletion r.1 r.2)
  | .replaceEvent choice =>
    (e.replaceSelectedEvent choice).map fun r => r.1.map (.replacement · r.2)
  | .addCommand kind dialog => (e.addCommand kind dialog).map fun r => .ok (.command r.1 r.2)
  | .dropCommand kind index dialog =>
    (e.dropCommand kind index dialog).map fun r => .ok (.command r.1 r.2)
  | .editCommand c dialog => (e.editCommand c dialog).map fun r => r.1.map (.edited · r.2)
  | .deleteCommands handles => (e.deleteCommands handles).map (.map .deleted)
  | .moveCommand c index => (e.moveCommand c index).map (.map .moved)
  | .scriptMode on => (e.setScriptMode on).map fun _ => .ok .done
  | .load records => (e.load records).map (.map fun _ => .done)
  | .fire times => ⟨.ok .done, e.fire times, []⟩
  | .interpreter change => ⟨.ok .done, { e with interpreter := change e.interpreter }, []⟩
  | .pump => e.pump.map (.ok ∘ .pumped)

/-- The editor after a sequence of steps. -/
def run [StatusSource ι] (e : Editor ι) (steps : List (Step ι)) : Editor ι :=
  steps.foldl (fun e s => (e.apply s).state) e

end Editor

end RobotProgram
