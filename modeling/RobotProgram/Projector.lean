import RobotProgram.Interpreter
import RobotProgram.Program
import RobotProgram.Ticker

/-!
# Highlights and their projector

While a script runs, the status of the interpreter is projected onto the program: running events are
lit, and in the selected event the command that was started last. Highlights are kept by handle, apart
from the program, which they never change. The projector asks the interpreter at most once for all the
ticks that have become due.

## Main definitions

* `Highlights`: the lit events and commands.
* `Highlights.project`: the highlights after projecting a status.
* `Projector`: the ticker, the highlights and whether the projector runs.
* `Projector.poll`: one look at the ticker.
-/

namespace RobotProgram

/-! ## Highlights -/

/-- Lit events, and lit commands with their events. -/
structure Highlights where
  events : List (Handle Event)
  commands : List (Handle Event × Handle Command)
  deriving DecidableEq

namespace Highlights

def none : Highlights := ⟨[], []⟩

def isEmpty (l : Highlights) : Bool := l.events.isEmpty && l.commands.isEmpty

def hasEvent (l : Highlights) (h : Handle Event) : Bool := decide (h ∈ l.events)

def hasCommand (l : Highlights) (h : Handle Event) (c : Handle Command) : Bool :=
  decide ((h, c) ∈ l.commands)

/-- Lights an event or puts it out. -/
def setEvent (l : Highlights) (h : Handle Event) (on : Bool) : Highlights :=
  if on then if h ∈ l.events then l else { l with events := l.events ++ [h] }
  else { l with events := l.events.filter (· ≠ h) }

/-- Puts out all commands of an event but the given one, which is lit. -/
def setCommand (l : Highlights) (h : Handle Event) (c : Option (Handle Command)) : Highlights :=
  { l with commands := l.commands.filter (·.1 ≠ h) ++ (c.map fun c => (h, c)).toList }

/-- The command that a running event has started last, by its place. -/
def lastPlace? (status : Status) (place : Nat) : Option Nat :=
  (status.get? place).bind List.getLast?

/-- Projects a status onto the event at a place. -/
def projectEvent (l : Highlights) (status : Status) (selected : Option (Handle Event)) (place : Nat)
    (h : Handle Event) (event : Event) : Highlights :=
  let l := l.setEvent h (status.get? place).isSome
  if some h = selected then
    l.setCommand h ((lastPlace? status place).bind event.routine.commands.handleAt?)
  else l

/-- Projects a status onto events, the first of them at a place. -/
def projectFrom (status : Status) (selected : Option (Handle Event)) :
    Nat → List (Handle Event × Event) → Highlights → Highlights
  | _, [], l => l
  | place, (h, event) :: rest, l =>
    projectFrom status selected (place + 1) rest (l.projectEvent status selected place h event)

/-- Projects a status onto a program. -/
def project (l : Highlights) (program : Program) (status : Status) : Highlights :=
  projectFrom status program.selected 0 program.entries l

/-- The notice of a last command that the selected event, at a place, does not have. -/
def beyondNotices (status : Status) (place : Nat) (event : Event) : List Notice :=
  match lastPlace? status place with
  | some last =>
    if (event.routine.commands.handleAt? last).isNone then [.commandBeyond place last] else []
  | Option.none => []

/-- The notices of projecting a status onto a program. -/
def projectNotices (program : Program) (status : Status) : List Notice :=
  (program.entries.zipIdx.filter fun e => some e.1.1 = program.selected).flatMap fun e =>
    beyondNotices status e.2 e.1.2

end Highlights

/-! ## The projector -/

/-- Keeps highlights up to date, at an interval in milliseconds. -/
structure Projector where
  ticker : Ticker
  interval : Nat
  running : Bool
  highlights : Highlights
  ticks : Nat

namespace Projector

def new (interval : Nat) : Projector := ⟨.idle, interval, false, .none, 0⟩

/-- Starts the ticker, unless it is running. -/
def start (p : Projector) : Outcome Projector Unit :=
  if p.running then ⟨(), p, [.alreadyRunning]⟩
  else
    ⟨(), { p with running := true, ticks := 0, ticker := p.ticker.start p.interval },
      [.projectorStarted p.interval]⟩

/-- Stops the ticker and puts everything out, whether or not the projector is running. -/
def stop (p : Projector) : Outcome Projector Unit :=
  ⟨(), { p with running := false, ticker := p.ticker.stop, highlights := .none },
    if p.running then [.projectorStopped p.ticks] else []⟩

/-- Projects a status. -/
def project (p : Projector) (program : Program) (status : Status) : Outcome Projector Unit :=
  let highlights := p.highlights.project program status
  ⟨(), { p with ticks := p.ticks + 1, highlights },
    Highlights.projectNotices program status
      ++ [.projected (p.ticks + 1) highlights.events.length]⟩

/-- Asks for a status and projects it if ticks are due; several due ticks are one. -/
def poll {ι : Type} [StatusSource ι] (p : Projector) (program : Program) (interpreter : ι) :
    Outcome (Projector × ι) Bool :=
  if !p.running then ⟨false, (p, interpreter), []⟩
  else
    let (due, ticker) := p.ticker.take
    let p := { p with ticker }
    if due = 0 then ⟨false, (p, interpreter), []⟩
    else
      let (status, interpreter) := StatusSource.report interpreter
      let o := p.project program status
      ⟨true, (o.state, interpreter),
        (if 1 < due then [Notice.ticksCoalesced due] else []) ++ o.notices⟩

def fire (p : Projector) (times : Nat) : Projector := { p with ticker := p.ticker.fire times }

end Projector

end RobotProgram
