import RobotProgram.Arguments
import RobotProgram.SettingsFile
import RobotProgram.Simulation

/-!
# Sessions

A session reads settings and a program, prints the program, simulates a run of it, and writes it out
again, as its arguments ask.

## Main definitions

* `Session.Fault`: why a session fails.
* `Session.run`: a session up to the writing of its program.
* `Session.finish`: what comes of the writing.
* `Session.inFolder`: a whole session with the files of a folder.
-/

namespace RobotProgram.Session

/-! ## Faults -/

/-- Why a session fails. -/
inductive Fault where
  | settings (path : String) (cause : SettingsFile.Fault)
  | programUnread (path : String) (cause : FileFault)
  | programUnparsed (path : String) (cause : RobotProgram.Fault)
  | programUnloaded (path : String) (cause : RobotProgram.Fault)
  | simulation (cause : Simulation.Fault)
  | programUnwritten (path : String) (cause : FileFault)
  deriving DecidableEq

namespace Fault

/-- What has failed. -/
def context : Fault → String
  | settings path cause => cause.context path
  | programUnread path _ => "Failed to read program: " ++ Text.quoted path
  | programUnparsed path _ => "Failed to parse program: " ++ Text.quoted path
  | programUnloaded path _ => "Failed to load program: " ++ Text.quoted path
  | simulation cause => cause.message
  | programUnwritten path _ => "Failed to write program: " ++ Text.quoted path

/-- Why it has failed, where there is more to say. -/
def cause? : Fault → Option String
  | settings _ cause => cause.cause?
  | programUnread _ cause | programUnwritten _ cause => some cause.message
  | programUnparsed _ cause | programUnloaded _ cause => some cause.message
  | simulation _ => none

/-- How a fault is reported at the end of a session. -/
def text (fault : Fault) : String :=
  "Error: " ++ fault.context ++ "\n" ++
    match fault.cause? with
    | none => ""
    | some cause =>
      "\nCaused by:\n" ++ Listing.joinRows ((cause.splitOn "\n").map ("    " ++ ·))

end Fault

/-! ## Parts of a session -/

/-- A part of a session puts out something and may fail. -/
abbrev Part := ExceptT Fault (StateM (List Output))

def say (outputs : List Output) : Part Unit := modify (· ++ outputs)

def tell (notices : List Notice) : Part Unit := say (notices.map .notice)

/-- Goes on with what was found, or fails. -/
def demand {α : Type} : Except Fault α → Part α
  | .ok x => pure x
  | .error fault => throw fault

/-- The settings of a file, or the defaults. -/
def loadSettings (read : String → Except FileFault String) : Option String → Part Settings
  | none => pure {}
  | some path => do
    tell [.loadingSettings path]
    demand ((SettingsFile.read (read path)).mapError (.settings path))

/-- An editor of the program of a file. -/
def loadProgram (read : String → Except FileFault String) (settings : Settings) (path : String) :
    Part (Editor Playback) := do
  let text ← demand ((read path).mapError (.programUnread path))
  let records ← demand ((SaveFile.read text).mapError (.programUnparsed path))
  let o := (Editor.new settings.engine settings.simulation.playback).load records
  tell o.notices
  demand (o.answer.mapError (.programUnloaded path))
  return o.state

/-- A simulated run; at every look one tick is due, because it is waited for. -/
def simulate (settings : Settings) (e : Editor Playback) : Part (Editor Playback) := do
  let (outputs, result) := Simulation.run settings (List.replicate e.interpreter.length 1) e
  say outputs
  demand (result.mapError .simulation)

/-! ## Whole sessions -/

/-- What a session asks to be written: a path and a text. -/
abbrev Request := Option (String × String)

/--
A session up to the writing of its program. Files are found through `read`; `generated` is the time of
day as it is printed.
-/
def run (a : Arguments) (read : String → Except FileFault String) (generated : String) :
    Part Request := do
  tell [.greeting Listing.version, .engineVersion Listing.version]
  match a.program with
  | none =>
    say [.quickStart]
    return none
  | some path =>
    let settings ← loadSettings read a.settings
    let e ← loadProgram read settings path
    tell [.loaded e.program.summary]
    say [.listing path generated (e.view settings.display)]
    let e ← if a.simulate then simulate settings e else pure e
    return a.output.map fun output => (output, SaveFile.write e.save)

/-- What comes of writing a program. -/
def finish (path : String) (written : Except FileFault Unit) : Part Unit := do
  demand (written.mapError (.programUnwritten path))
  tell [.written path]

/-- A whole session with the files of a folder; also answers the folder that it leaves. -/
def inFolder (a : Arguments) (folder : Folder) (generated : String) : Part Folder := do
  match ← run a folder.read generated with
  | none => return folder
  | some (path, text) =>
    let written := folder.write path text
    if let .ok (.stream stream) := written then say [.written stream text]
    finish path (written.map fun _ => ())
    match written with
    | .ok (.inside folder) => return folder
    | _ => return folder

/-- What a part of a session comes to, and what it has put out. -/
def transcript {α : Type} (part : Part α) : Except Fault α × List Output := part.run.run []

end RobotProgram.Session
