import RobotProgram.Text.Interval
import RobotProgram.Text.Quoted

/-!
# Notices

What the program reports about its work while it goes on. A notice is what happened; the line that a
log shows of it has a level, the part of the program that speaks, and a text.

## Main definitions

* `Notice`: what may be reported.
* `Notice.line`: how it is shown.
* `Outcome`: the answer of an operation, the state it leaves and the notices it gave.
-/

namespace RobotProgram

/-- How urgent a notice is. -/
inductive Level where
  | error | warn | info | debug | trace
  deriving DecidableEq

def Level.word : Level → String
  | .error => "ERROR"
  | .warn => "WARN"
  | .info => "INFO"
  | .debug => "DEBUG"
  | .trace => "TRACE"

/-- The more urgent levels have the lower rank. -/
def Level.rank : Level → Nat
  | .error => 0
  | .warn => 1
  | .info => 2
  | .debug => 3
  | .trace => 4

/-- The parts of the program that speak. -/
inductive Speaker where
  | roster | routine | program | projector | editor | prompt | session
  deriving DecidableEq

def Speaker.target : Speaker → String
  | .roster => "program_engine::registry"
  | .routine => "program_engine::command_list"
  | .program => "program_engine::event_list"
  | .projector => "program_engine::highlight"
  | .editor => "program_engine::control"
  | .prompt => "program_engine::prompt"
  | .session => "program_cli"

/-- What may be reported. Handles are given by their ids. -/
inductive Notice where
  | unregistered (label : String) (id : Nat)
  -- about the commands of an event
  | commandLogicKept (gui saved expected : String)
  | routineLocked (operation : String)
  | commandAdded (gui : String) (id position : Nat)
  | nothingSelected
  | commandsDeleted (count : Nat)
  | commandsLoaded (count : Nat)
  -- about the events
  | eventLogicKept (gui saved expected : String)
  | programLocked (operation : String)
  | eventExists (gui : String) (existing : Nat)
  | eventAdded (gui : String) (id : Nat)
  | noSelection (operation : String)
  | deletionDeclined (id : Nat)
  | eventDeleted (gui : String) (id commands : Nat)
  | replacementExists (gui : String) (existing id : Nat)
  | eventReplaced (old : String) (id : Nat) (new : String)
  | eventsLoaded (kept records : Nat)
  | programLock (on : Bool)
  -- about highlights
  | alreadyRunning
  | projectorStarted (interval : Nat)
  | projectorStopped (ticks : Nat)
  | ticksCoalesced (due : Nat)
  | commandBeyond (position command : Nat)
  | projected (tick running : Nat)
  -- about the editor
  | nothingDisplayed
  | pickerDismissed
  | selectToChange
  | addWithoutEvent (gui : String)
  | addWhileRunning (gui : String)
  | promptRejected (gui : String)
  | editWithoutEvent (id : Nat)
  | editWhileRunning (id : Nat)
  | deleteWithoutEvent
  | moveWithoutEvent (id : Nat)
  | scriptMode (on : Bool)
  | loadWhileRunning
  | answered (question : String) (answer : Bool)
  -- about a session on the command line
  | greeting (version : String)
  | engineVersion (version : String)
  | loadingSettings (path : String)
  | loaded (summary : String)
  | noSnapshots
  | simulationFinished
  | written (path : String)
  deriving DecidableEq

namespace Notice

def speaker : Notice → Speaker
  | unregistered _ _ => .roster
  | commandLogicKept _ _ _ | routineLocked _ | commandAdded _ _ _ | nothingSelected
  | commandsDeleted _ | commandsLoaded _ => .routine
  | eventLogicKept _ _ _ | programLocked _ | eventExists _ _ | eventAdded _ _ | noSelection _
  | deletionDeclined _ | eventDeleted _ _ _ | replacementExists _ _ _ | eventReplaced _ _ _
  | eventsLoaded _ _ | programLock _ => .program
  | alreadyRunning | projectorStarted _ | projectorStopped _ | ticksCoalesced _
  | commandBeyond _ _ | projected _ _ => .projector
  | answered _ _ => .prompt
  | greeting _ | engineVersion _ | loadingSettings _ | loaded _ | noSnapshots
  | simulationFinished | written _ => .session
  | _ => .editor

def level : Notice → Level
  | unregistered _ _ => .error
  | commandLogicKept _ _ _ | routineLocked _ | eventLogicKept _ _ _ | programLocked _
  | noSelection _ | selectToChange | addWithoutEvent _ | addWhileRunning _ | editWithoutEvent _
  | editWhileRunning _ | deleteWithoutEvent | moveWithoutEvent _ | loadWhileRunning
  | noSnapshots => .warn
  | commandAdded _ _ _ | nothingSelected | commandsDeleted _ | commandsLoaded _ | programLock _
  | alreadyRunning | nothingDisplayed | answered _ _ => .debug
  | ticksCoalesced _ | commandBeyond _ _ | projected _ _ => .trace
  | _ => .info

/-- How a handle is shown. -/
def handle (id : Nat) : String := "#" ++ toString id

def text : Notice → String
  | unregistered label id => "Lookup of unregistered " ++ label ++ " handle " ++ handle id
  | commandLogicKept gui saved expected =>
    "Command " ++ gui ++ " saved with logic pair '" ++ saved ++ "' (expected '" ++ expected
      ++ "'), keeping saved value"
  | routineLocked operation =>
    "CommandList::" ++ operation ++ ": list is locked while the script runs, ignoring"
  | commandAdded gui id position =>
    "Added " ++ gui ++ " command " ++ handle id ++ " at position " ++ toString position
  | nothingSelected => "CommandList::delete_selected: nothing selected"
  | commandsDeleted count => "Deleted " ++ toString count ++ " command(s)"
  | commandsLoaded count => "Loaded " ++ toString count ++ " command(s)"
  | eventLogicKept gui saved expected =>
    "Event " ++ gui ++ " saved with logic pair '" ++ saved ++ "' (expected '" ++ expected
      ++ "'), keeping saved value"
  | programLocked operation =>
    "EventList::" ++ operation ++ ": list is locked while the script runs, ignoring"
  | eventExists gui existing =>
    "Event " ++ gui ++ " already exists as " ++ handle existing ++ ", disregarding"
  | eventAdded gui id => "Added event " ++ gui ++ " " ++ handle id ++ " (selected)"
  | noSelection operation => "EventList::" ++ operation ++ ": no event selected"
  | deletionDeclined id => "User declined deleting event " ++ handle id
  | eventDeleted gui id commands =>
    "Deleted event " ++ gui ++ " " ++ handle id ++ " with " ++ toString commands ++ " command(s)"
  | replacementExists gui existing id =>
    "Event " ++ gui ++ " already exists as " ++ handle existing ++ ", not replacing " ++ handle id
  | eventReplaced old id new => "Replaced event " ++ old ++ " " ++ handle id ++ " with " ++ new
  | eventsLoaded kept records =>
    "Loaded " ++ toString kept ++ " event(s) from " ++ toString records ++ " record(s)"
  | programLock on => "Event list " ++ (if on then "locked" else "unlocked")
  | alreadyRunning => "Highlight projector already running"
  | projectorStarted interval =>
    "Highlight projector started (" ++ Text.interval interval ++ " cadence)"
  | projectorStopped ticks =>
    "Highlight projector stopped after " ++ toString ticks ++ " tick(s)"
  | ticksCoalesced due => "Coalescing " ++ toString due ++ " due ticks into one poll"
  | commandBeyond position command =>
    "Event " ++ toString position ++ " reports command " ++ toString command ++ " beyond its list"
  | projected tick running =>
    "Tick " ++ toString tick ++ ": " ++ toString running ++ " event(s) running"
  | nothingDisplayed => "ControlSurface::refresh: no event selected"
  | pickerDismissed => "User rejected the event prompt"
  | selectToChange => "You need to select an event to change"
  | addWithoutEvent gui => "Cannot add " ++ gui ++ ": no event selected"
  | addWhileRunning gui => "Cannot add " ++ gui ++ " while the script runs"
  | promptRejected gui => "User rejected the " ++ gui ++ " prompt"
  | editWithoutEvent id => "Cannot edit command " ++ handle id ++ ": no event selected"
  | editWhileRunning id => "Cannot edit command " ++ handle id ++ " while the script runs"
  | deleteWithoutEvent => "Cannot delete commands: no event selected"
  | moveWithoutEvent id => "Cannot move command " ++ handle id ++ ": no event selected"
  | scriptMode on => "Script mode " ++ (if on then "on" else "off")
  | loadWhileRunning => "Cannot load a program while the script runs"
  | answered question answer =>
    "Auto-answering confirmation '" ++ question ++ "' with "
      ++ (if answer then "true" else "false")
  | greeting version => "Robot Program CLI v" ++ version
  | engineVersion version => "Using engine library v" ++ version
  | loadingSettings path => "Loading configuration from: " ++ Text.quoted path
  | loaded summary => "Loaded " ++ summary
  | noSnapshots => "No simulation snapshots configured, nothing to run"
  | simulationFinished => "Simulation finished, highlights cleared"
  | written path => "Program written to " ++ Text.quoted path

/-- The line that a log shows of a notice. -/
def line (notice : Notice) : String :=
  "[" ++ notice.level.word ++ " " ++ notice.speaker.target ++ "] " ++ notice.text

end Notice

/-- What an operation leaves: its answer, the state, and the notices it gave, in order. -/
structure Outcome (σ ρ : Type) where
  answer : ρ
  state : σ
  notices : List Notice

namespace Outcome

variable {σ τ ρ ρ' : Type}

/-- The same outcome for a larger state. -/
def lift (f : σ → τ) (outcome : Outcome σ ρ) : Outcome τ ρ :=
  ⟨outcome.answer, f outcome.state, outcome.notices⟩

/-- The same outcome with its answer put another way. -/
def map (f : ρ → ρ') (outcome : Outcome σ ρ) : Outcome σ ρ' :=
  ⟨f outcome.answer, outcome.state, outcome.notices⟩

/-- The outcome with notices given before. -/
def after (notices : List Notice) (outcome : Outcome σ ρ) : Outcome σ ρ :=
  { outcome with notices := notices ++ outcome.notices }

@[simp] theorem answer_lift (f : σ → τ) (o : Outcome σ ρ) : (o.lift f).answer = o.answer := rfl
@[simp] theorem state_lift (f : σ → τ) (o : Outcome σ ρ) : (o.lift f).state = f o.state := rfl
@[simp] theorem answer_map (f : ρ → ρ') (o : Outcome σ ρ) : (o.map f).answer = f o.answer := rfl
@[simp] theorem state_map (f : ρ → ρ') (o : Outcome σ ρ) : (o.map f).state = o.state := rfl
@[simp] theorem answer_after (ns : List Notice) (o : Outcome σ ρ) :
    (o.after ns).answer = o.answer := rfl
@[simp] theorem state_after (ns : List Notice) (o : Outcome σ ρ) :
    (o.after ns).state = o.state := rfl

end Outcome

end RobotProgram
