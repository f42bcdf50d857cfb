import RobotProgram.Folder
import RobotProgram.Listing
import RobotProgram.Notice

/-!
# Output

What a session puts out, in order: notices for the log, and what is printed of the program.

## Main definitions

* `View`: a program as it is shown.
* `Output`: what is put out.
* `Output.text?`: how it is printed; `Output.errorText?`: how it is logged.
* `Output.print?`: what is printed of it in words, and why that stops.
-/

namespace RobotProgram

/-- A program as it is shown: what is lit in it, and how it is set out. -/
structure View where
  program : Program
  highlights : Highlights
  display : DisplaySettings

namespace View

/-- The printed tree of what is shown. -/
def render (v : View) : String := Listing.render v.program v.highlights v.display

/-- Prints the tree below a text that is printed before. -/
def printBelow (m : Listing.Machine) (above : String) (v : View) :
    Option String × Option Listing.Stop :=
  match Listing.print m v.program v.highlights v.display with
  | .ok tree => (some (above ++ tree), none)
  | .error stop => (some above, some stop)

end View

inductive Output where
  | notice (notice : Notice)
  /-- What to do when no program is given. -/
  | quickStart
  | listing (source generated : String) (view : View)
  /-- The head of a simulated run. -/
  | simulation (ticks : Nat)
  /-- The next tick is waited for, at an interval in milliseconds. -/
  | wait (interval : Nat)
  | tick (number : Nat) (view : View)
  /-- A text that is written to a stream as if to a file. -/
  | written (stream : Stream) (text : String)

namespace Output

def quickStartText : String :=
  Listing.joinRows
    ["Robot Program - No input specified", "", "Quick Start:", "  program-cli --program demo.json",
      "  program-cli --program demo.json --config config.toml --simulate", "",
      "Use --help for more options"]

/-- How output is printed. A quiet session prints nothing of its program. -/
def text? (quiet : Bool) : Output → Option String
  | notice _ | wait _ | written .errors _ => none
  | written .output text => some text
  | quickStart => some quickStartText
  | listing source generated view =>
    if quiet then none else some (Listing.header source generated ++ "\n" ++ view.render)
  | simulation ticks =>
    if quiet then none
    else
      some ("\n" ++ Listing.joinRows
        [Listing.rule '─', "  Simulating " ++ toString ticks ++ " tick(s)", Listing.rule '─'])
  | tick number view =>
    if quiet then none else some ("\nTick " ++ toString number ++ ":\n" ++ view.render)

/-- What comes to be printed of output, and why no more of it, if printing stops. -/
def print? (m : Listing.Machine) (quiet : Bool) : Output → Option String × Option Listing.Stop
  | listing source generated view =>
    if quiet then (none, none) else view.printBelow m (Listing.header source generated ++ "\n")
  | tick number view =>
    if quiet then (none, none) else view.printBelow m ("\nTick " ++ toString number ++ ":\n")
  | output => (output.text? quiet, none)

/-- What of output goes to the stream of errors, if some notices are shown there. -/
def errorText? (shows : Notice → Bool) : Output → Option String
  | notice n => if shows n then some (n.line ++ "\n") else none
  | written .errors text => some text
  | _ => none

end Output

end RobotProgram
