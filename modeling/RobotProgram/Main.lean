import RobotProgram.Session
import RobotProgram.Ticker
import Std.Time.Zoned

/-!
# The command line program

Carries out sessions: files are read and written, output is printed and logged, and ticks are waited
for. What there is to do is decided elsewhere.
-/

namespace RobotProgram.CommandLine

/-! ## Files -/

/-- The cause behind an error; its number may come with either sign. -/
def fileFault : IO.Error → FileFault
  | .noFileOrDirectory .. => .missing
  | .inappropriateType _ number _ =>
    if number.toInt32.toInt.natAbs = 21 then .directory else .notDirectory
  | .invalidArgument _ number details =>
    if number.toInt32.toInt.natAbs = 36 then .tooLong else .other details
  | .resourceExhausted _ number details =>
    if number.toInt32.toInt.natAbs = 28 then .noSpace else .other details
  | .permissionDenied .. => .other "Permission denied (os error 13)"
  | error => .other (toString error)

def readFile (path : String) : IO (Except FileFault String) := do
  try
    match String.fromUTF8? (← IO.FS.readBinFile path) with
    | some text => return .ok text
    | none => return .error .notText
  catch error => return .error (fileFault error)

def writeFile (path text : String) : IO (Except FileFault Unit) := do
  try
    let file ← IO.FS.Handle.mk path .write
    file.putStr text
    file.flush
    return .ok ()
  catch error => return .error (fileFault error)

/-- The files that arguments name, as far as they are found. -/
def readFiles (a : Arguments) : IO (List (String × Except FileFault String)) :=
  (a.settings.toList ++ a.program.toList).mapM fun path => return (path, ← readFile path)

/-! ## Time -/

/-- The date and time of day. -/
def now : IO String := do
  let t ← Std.Time.PlainDateTime.now
  let moment : Listing.Moment :=
    ⟨t.year.toInt.toNat, t.month.val.toNat, t.day.val.toNat, t.hour.val.toNat, t.minute.val.toNat,
      t.second.val.toNat⟩
  return moment.text

/-- Sleeps for a number of milliseconds, an hour at most at once. -/
partial def sleep (left : Nat) : IO Unit := do
  let part := min left 3600000
  unless part = 0 do
    IO.sleep part.toUInt32
    sleep (left - part)

/-- Waits for the next tick of a ticker, which is started if it stands still. -/
def wait (ticker : ClockTicker) (interval : Nat) : IO ClockTicker := do
  let start ← IO.monoMsNow
  let ticker := if ticker.isRunning then ticker else ticker.start interval start
  sleep ((ticker.untilNext start).getD 0)
  return (ticker.take (← IO.monoMsNow)).2

/-! ## Output -/

/-- A part of the program that may end it with an exit code. -/
abbrev Part := ExceptT UInt32 IO

/-- Puts out one thing after the other, until one cannot be printed. -/
def putOut (a : Arguments) (outputs : List Output) : Part Unit := do
  let stdout ← IO.getStdout
  let mut ticker := ClockTicker.idle
  for output in outputs do
    match output with
    | .wait interval => ticker ← wait ticker interval
    | _ =>
      let (text, stop) := output.print? .largest a.quiet
      if let some text := text then
        stdout.putStr text
        stdout.flush
      if let some stop := stop then
        IO.eprintln stop.message
        throw 101
      if let some text := output.errorText? a.shows then IO.eprint text

/-- Puts out what a part of a session has put out, and reports its fault. -/
def carryOut {α : Type} (a : Arguments) (part : Session.Part α) : Part α := do
  let (result, outputs) := Session.transcript part
  putOut a outputs
  match result with
  | .ok x => return x
  | .error fault =>
    IO.eprint fault.text
    throw 1

/-- A session from its arguments. -/
def run (a : Arguments) : Part Unit := do
  let files ← readFiles a
  let read (path : String) := (files.lookup path).getD (.error .missing)
  if let some (path, text) ← carryOut a (Session.run a read (← now)) then
    let written ← writeFile path text
    carryOut a (Session.finish path written)

end RobotProgram.CommandLine

open RobotProgram in
def main (words : List String) : IO UInt32 := do
  match Arguments.read words with
  | .ok a =>
    match ← (CommandLine.run a).run with
    | .ok () => return 0
    | .error code => return code
  | .error .help =>
    IO.print Arguments.helpText
    return 0
  | .error .version =>
    IO.print Arguments.versionText
    return 0
  | .error .refused =>
    IO.eprint Arguments.refusalText
    return 2
