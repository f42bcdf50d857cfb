/-!
# Interpreters

An interpreter runs the program elsewhere and, when it is asked, reports what it is running. A status
names the running events by their places, each with the places of the commands it has executed.

## Main definitions

* `Status`: what runs.
* `StatusSource`: what can be asked for a status.
* `Reporter`: an interpreter that reports a status that is set, and counts how often it was asked.
* `Playback`: an interpreter that replays given statuses.
-/

namespace RobotProgram

/-- The running events by place, in increasing order, each with its executed commands by place. -/
structure Status where
  entries : List (Nat × List Nat)
  deriving DecidableEq

namespace Status

def empty : Status := ⟨[]⟩

/-- The commands that an event has executed, if it is running. -/
def get? (s : Status) (event : Nat) : Option (List Nat) := s.entries.lookup event

/-- Puts an entry in its place among increasing ones; it takes the place of one for the same event. -/
def insertEntry (event : Nat) (commands : List Nat) :
    List (Nat × List Nat) → List (Nat × List Nat)
  | [] => [(event, commands)]
  | (e, cs) :: rest =>
    if event < e then (event, commands) :: (e, cs) :: rest
    else if event = e then (event, commands) :: rest
    else (e, cs) :: insertEntry event commands rest

/-- The status of entries in any order; of entries for one event the last counts. -/
def ofEntries (entries : List (Nat × List Nat)) : Status :=
  ⟨entries.foldl (fun acc e => insertEntry e.1 e.2 acc) []⟩

end Status

/-- What can be asked for a status; asking may change it. -/
class StatusSource (ι : Type) where
  report : ι → Status × ι

/-- Reports the status that was set last. -/
structure Reporter where
  status : Status
  asked : Nat

instance : StatusSource Reporter where
  report r := (r.status, { r with asked := r.asked + 1 })

/-- Reports one status after the other, and then that nothing runs. -/
structure Playback where
  statuses : List Status
  asked : Nat

namespace Playback

instance : StatusSource Playback where
  report p := ((p.statuses[p.asked]?).getD .empty, { p with asked := p.asked + 1 })

def length (p : Playback) : Nat := p.statuses.length

/-- How many of the statuses have been reported. -/
def polled (p : Playback) : Nat := min p.asked p.length

def isFinished (p : Playback) : Bool := p.length ≤ p.asked

end Playback

end RobotProgram
