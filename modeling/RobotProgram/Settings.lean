import RobotProgram.Interpreter
import RobotProgram.Json.Format

/-!
# Settings

The settings of the editor, of the printed tree, and of a simulated run. All of them have defaults;
each group can be read from JSON.

## Main definitions

* `EngineSettings`, `DisplaySettings`, `SimulationSettings`: the groups.
* `Settings`: all groups together.
* `Settings.check`: what is wrong with settings that were read.
-/

namespace RobotProgram

/-! ## Groups -/

/-- Settings of the editor; the interval is in milliseconds. -/
structure EngineSettings where
  pollInterval : Nat := 20
  deleteQuestion : String := "Are you sure you want to delete this event and all its commands?"
  selectFirst : Bool := true
  deriving DecidableEq

/-- Settings of the printed tree: blanks for each level of nesting, and what stands before lit rows. -/
structure DisplaySettings where
  indentWidth : Nat := 4
  marker : String := "▶"
  deriving DecidableEq

/-- A running event by its place, with the places of the commands it has executed. -/
structure RunningEvent where
  event : Nat := 0
  commands : List Nat := []
  deriving DecidableEq

/-- What an interpreter reports at one tick. -/
structure Snapshot where
  running : List RunningEvent := []
  deriving DecidableEq

/-- Settings of a simulated run: the event to select before it, and what is reported. -/
structure SimulationSettings where
  selectEvent : Option Nat := none
  snapshots : List Snapshot := []
  deriving DecidableEq

structure Settings where
  engine : EngineSettings := {}
  display : DisplaySettings := {}
  simulation : SimulationSettings := {}
  deriving DecidableEq

def Snapshot.status (s : Snapshot) : Status :=
  .ofEntries (s.running.map fun r => (r.event, r.commands))

/-- The interpreter that replays the snapshots. -/
def SimulationSettings.playback (s : SimulationSettings) : Playback :=
  ⟨s.snapshots.map Snapshot.status, 0⟩

/-! ## Reading JSON -/

def EngineSettings.layout : Json.Layout EngineSettings where
  name := "EngineConfig"
  fields :=
    [⟨"poll_interval_ms", false,
        (Json.Format.natural "u64").map fun n s => { s with pollInterval := n }⟩,
      ⟨"delete_confirmation", false,
        Json.Format.string.map fun q s => { s with deleteQuestion := q }⟩,
      ⟨"select_first_on_load", false,
        Json.Format.bool.map fun b s => { s with selectFirst := b }⟩]
  blank := {}

def DisplaySettings.layout : Json.Layout DisplaySettings where
  name := "DisplayConfig"
  fields :=
    [⟨"indent_width", false,
        (Json.Format.natural "usize").map fun n s => { s with indentWidth := n }⟩,
      ⟨"highlight_marker", false, Json.Format.string.map fun m s => { s with marker := m }⟩]
  blank := {}

def RunningEvent.layout : Json.Layout RunningEvent where
  name := "RunningEventConfig"
  fields :=
    [⟨"event", true, (Json.Format.natural "usize").map fun n r => { r with event := n }⟩,
      ⟨"commands", false,
        (Json.Format.natural "usize").list.map fun cs r => { r with commands := cs }⟩]
  blank := {}

def Snapshot.layout : Json.Layout Snapshot where
  name := "SnapshotConfig"
  fields := [⟨"running", false, RunningEvent.layout.format.list.map fun rs _ => ⟨rs⟩⟩]
  blank := {}

/-! ## Checking -/

/-- What is wrong with settings; of two faults the first counts. -/
inductive SettingsFault where
  | noPollInterval
  | noIndentWidth
  deriving DecidableEq

def SettingsFault.message : SettingsFault → String
  | .noPollInterval => "engine.poll_interval_ms must be greater than zero"
  | .noIndentWidth => "display.indent_width must be greater than zero"

def Settings.check (s : Settings) : Option SettingsFault :=
  if s.engine.pollInterval = 0 then some .noPollInterval
  else if s.display.indentWidth = 0 then some .noIndentWidth
  else none

end RobotProgram
