/-!
# Kinds of events and commands

The editor knows a closed set of kinds. Save files call a kind by two names: the one of its widget,
which decides the kind, and the one of the class that performs it, which a file may override.

## Main definitions

* `CommandKind`, `EventKind`: the kinds, and `all` of them in the order of the palette.
* `CommandKind.ofGui?`, `EventKind.ofGui?`: the kind of a widget name.
* `CommandKind.bracket`: whether a command opens or closes a block.
-/

namespace RobotProgram

/-- What a kind is called: by its widget, by the class that performs it, and by people. -/
structure Naming where
  gui : String
  logic : String
  title : String
  deriving DecidableEq

/-! ## Commands -/

inductive CommandKind where
  | moveXYZ | moveWrist | speed | attach | detach | grip | release | tone | wait | trackColor
  | setVariable | testVariable | otherwise | startBlock | endBlock | script | endEvent | endProgram
  deriving DecidableEq

/-- The part a command plays in the nesting of blocks. -/
inductive Bracket where
  | opening | closing | plain
  deriving DecidableEq

namespace CommandKind

/-- Every kind, in the order of the palette. -/
def all : List CommandKind :=
  [moveXYZ, moveWrist, speed, attach, detach, grip, release, tone, wait, trackColor, setVariable,
    testVariable, otherwise, startBlock, endBlock, script, endEvent, endProgram]

def naming : CommandKind → Naming
  | moveXYZ => ⟨"MoveXYZCommandGUI", "MoveXYZCommand", "Move XYZ"⟩
  | moveWrist => ⟨"MoveWristCommandGUI", "MoveWristCommand", "Set Wrist Angle"⟩
  | speed => ⟨"SpeedCommandGUI", "SpeedCommand", "Set Speed"⟩
  | attach => ⟨"AttachCommandGUI", "AttachCommand", "Attach Servos"⟩
  | detach => ⟨"DetachCommandGUI", "DetachCommand", "Detach Servos"⟩
  | grip => ⟨"GripCommandGUI", "GripCommand", "Activate Gripper"⟩
  | release => ⟨"DropCommandGUI", "DropCommand", "Deactivate Gripper"⟩
  | tone => ⟨"BuzzerCommandGUI", "BuzzerCommand", "Play Tone"⟩
  | wait => ⟨"WaitCommandGUI", "WaitCommand", "Wait"⟩
  | trackColor => ⟨"ColorTrackCommandGUI", "ColorTrackCommand", "Track Color"⟩
  | setVariable => ⟨"SetVariableCommandGUI", "SetVariableCommand", "Set Variable"⟩
  | testVariable => ⟨"TestVariableCommandGUI", "TestVariableCommand", "Test Variable"⟩
  | otherwise => ⟨"ElseCommandGUI", "ElseCommand", "Else"⟩
  | startBlock => ⟨"StartBlockCommandGUI", "StartBlockCommand", "Start Block"⟩
  | endBlock => ⟨"EndBlockCommandGUI", "EndBlockCommand", "End Block"⟩
  | script => ⟨"ScriptCommandGUI", "ScriptCommand", "Run Python Code"⟩
  | endEvent => ⟨"EndEventCommandGUI", "EndEventCommand", "End Event"⟩
  | endProgram => ⟨"EndProgramCommandGUI", "EndProgramCommand", "End Program"⟩

def gui (kind : CommandKind) : String := kind.naming.gui
def logic (kind : CommandKind) : String := kind.naming.logic
def title (kind : CommandKind) : String := kind.naming.title

/-- The kind of a widget name. -/
def ofGui? (name : String) : Option CommandKind := all.find? (·.gui == name)

def bracket : CommandKind → Bracket
  | startBlock => .opening
  | endBlock => .closing
  | _ => .plain

theorem mem_all (kind : CommandKind) : kind ∈ all := by cases kind <;> decide

theorem ofGui?_gui (kind : CommandKind) : ofGui? kind.gui = some kind := by
  cases kind <;> decide

theorem gui_of_ofGui? {name : String} {kind : CommandKind} (h : ofGui? name = some kind) :
    kind.gui = name := by
  simpa using List.find?_some h

end CommandKind

/-! ## Events -/

inductive EventKind where
  | start | finish | step | keyPress | tip | motion | noMotion
  deriving DecidableEq

namespace EventKind

/-- Every kind, in the order of the picker. -/
def all : List EventKind := [start, finish, step, keyPress, tip, motion, noMotion]

def naming : EventKind → Naming
  | start => ⟨"InitEventGUI", "InitEvent", "On Start"⟩
  | finish => ⟨"DestroyEventGUI", "DestroyEvent", "On End"⟩
  | step => ⟨"StepEventGUI", "StepEvent", "Every Step"⟩
  | keyPress => ⟨"KeypressEventGUI", "KeypressEvent", "On Key Press"⟩
  | tip => ⟨"TipEventGUI", "TipEvent", "On Tip"⟩
  | motion => ⟨"MotionEventGUI", "MotionEvent", "Motion Detected"⟩
  | noMotion => ⟨"NoMotionEventGUI", "NoMotionEvent", "No Motion Detected"⟩

def gui (kind : EventKind) : String := kind.naming.gui
def logic (kind : EventKind) : String := kind.naming.logic
def title (kind : EventKind) : String := kind.naming.title

/-- The kind of a widget name. -/
def ofGui? (name : String) : Option EventKind := all.find? (·.gui == name)

theorem mem_all (kind : EventKind) : kind ∈ all := by cases kind <;> decide

theorem ofGui?_gui (kind : EventKind) : ofGui? kind.gui = some kind := by
  cases kind <;> decide

theorem gui_of_ofGui? {name : String} {kind : EventKind} (h : ofGui? name = some kind) :
    kind.gui = name := by
  simpa using List.find?_some h

end EventKind

end RobotProgram
