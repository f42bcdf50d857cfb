import RobotProgram.Folder
import RobotProgram.Settings
import RobotProgram.Text.Quoted
import RobotProgram.Toml.Document
import RobotProgram.Toml.Layout

/-!
# Settings files

Settings are kept in a TOML file, in which every group and nearly every setting may be missing.

## Main definitions

* `SettingsFile.parse?`: the settings of a text.
* `SettingsFile.Fault`: why a file gives no settings.
* `SettingsFile.read`: the settings of a file, checked.
-/

namespace RobotProgram.SettingsFile

open Toml (Layout)

/-! ## Groups -/

def engine : Layout EngineSettings where
  fields :=
    [⟨"poll_interval_ms", .defaulted,
        fun v => v.natural?.map fun n s => { s with pollInterval := n }⟩,
      ⟨"delete_confirmation", .defaulted,
        fun v => v.string?.map fun q s => { s with deleteQuestion := q }⟩,
      ⟨"select_first_on_load", .defaulted,
        fun v => v.boolean?.map fun b s => { s with selectFirst := b }⟩]
  blank := {}

def display : Layout DisplaySettings where
  fields :=
    [⟨"indent_width", .defaulted,
        fun v => v.natural?.map fun n s => { s with indentWidth := n }⟩,
      ⟨"highlight_marker", .defaulted,
        fun v => v.string?.map fun m s => { s with marker := m }⟩]
  blank := {}

def runningEvent : Layout RunningEvent where
  fields :=
    [⟨"event", .required, fun v => v.natural?.map fun n r => { r with event := n }⟩,
      ⟨"commands", .defaulted,
        fun v => (v.list? Toml.Value.natural?).map fun cs r => { r with commands := cs }⟩]
  blank := {}

def snapshot : Layout Snapshot where
  fields :=
    [⟨"running", .defaulted,
        fun v => (v.list? runningEvent.read?).map fun rs _ => ⟨rs⟩⟩]
  blank := {}

def simulation : Layout SimulationSettings where
  fields :=
    [⟨"select_event", .optional,
        fun v => v.natural?.map fun n s => { s with selectEvent := some n }⟩,
      ⟨"snapshots", .defaulted,
        fun v => (v.list? snapshot.read?).map fun ss s => { s with snapshots := ss }⟩]
  blank := {}

def settings : Layout Settings where
  fields :=
    [⟨"engine", .defaulted, fun v => (engine.read? v).map fun g s => { s with engine := g }⟩,
      ⟨"display", .defaulted, fun v => (display.read? v).map fun g s => { s with display := g }⟩,
      ⟨"simulation", .defaulted,
        fun v => (simulation.read? v).map fun g s => { s with simulation := g }⟩]
  blank := {}

/-! ## Files -/

/-- The settings of a text. -/
def parse? (text : String) : Option Settings := do settings.ofMembers? (← Toml.parse? text)

/-- Why a file gives no settings. -/
inductive Fault where
  | unread (cause : FileFault)
  | unparsed
  | invalid (cause : SettingsFault)
  deriving DecidableEq

namespace Fault

/-- What has failed, for a file at a path. -/
def context (path : String) : Fault → String
  | unread _ => "Failed to read config file: " ++ Text.quoted path
  | unparsed => "Failed to parse config file: " ++ Text.quoted path
  | invalid _ => "Invalid config file: " ++ Text.quoted path

/-- Why it has failed, where there is more to say. -/
def cause? : Fault → Option String
  | unread cause => some cause.message
  | unparsed => none
  | invalid cause => some cause.message

end Fault

/-- The settings of what was found at a path. -/
def read (content : Except FileFault String) : Except Fault Settings := do
  let text ← content.mapError .unread
  match parse? text with
  | none => .error .unparsed
  | some settings =>
    match settings.check with
    | some fault => .error (.invalid fault)
    | none => .ok settings

end RobotProgram.SettingsFile
