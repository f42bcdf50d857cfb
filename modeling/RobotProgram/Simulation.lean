import RobotProgram.Editor
import RobotProgram.Output

/-!
# Simulated runs

A simulated run replays the snapshots of the settings in script mode. The clock is looked at again and
again; each look at which ticks are due projects the next snapshot and shows the program. The run ends
when every snapshot has been projected.

## Main definitions

* `Simulation.look`: one look at the clock.
* `Simulation.replay`: looks until the snapshots are through.
* `Simulation.run`: the whole run, from selecting an event to leaving script mode.
-/

namespace RobotProgram

/-- What an editor shows. -/
def Editor.view {ι : Type} (e : Editor ι) (display : DisplaySettings) : View :=
  ⟨e.program, e.projector.highlights, display⟩

namespace Simulation

/-- Why a run fails. -/
inductive Fault where
  /-- There is no event at the place where one is to be selected. -/
  | eventBeyond (place : Nat)
  | highlightsRemain
  deriving DecidableEq

def Fault.message : Fault → String
  | .eventBeyond place => "simulation.select_event " ++ toString place ++ " is out of range"
  | .highlightsRemain => "Highlights remain after leaving script mode"

/-- Selects the event at a place, if one is given. -/
def select (place : Option Nat) (e : Editor Playback) :
    Outcome (Editor Playback) (Except Fault Unit) :=
  match place with
  | none => ⟨.ok (), e, []⟩
  | some place =>
    match e.program.getAt? place with
    | none => ⟨.error (.eventBeyond place), e, []⟩
    | some (h, _) => (e.selectEvent h).map fun _ => .ok ()

/-- One look at the clock, once the next tick has been waited for; `due` ticks are due at it. -/
def look (display : DisplaySettings) (e : Editor Playback) (due : Nat) :
    List Output × Editor Playback :=
  let o := (e.fire due).pump
  let shown := if o.answer then [.tick o.state.interpreter.polled (o.state.view display)] else []
  (.wait e.projector.interval :: o.notices.map .notice ++ shown, o.state)

/-- Looks at the clock until the snapshots are through; `dues` are the ticks due at each look. -/
def replay (display : DisplaySettings) : List Nat → Editor Playback → List Output × Editor Playback
  | [], e => ([], e)
  | due :: dues, e =>
    if e.interpreter.isFinished then ([], e)
    else
      let (shown, e) := look display e due
      let (rest, e) := replay display dues e
      (shown ++ rest, e)

@[simp] theorem replay_nil (display : DisplaySettings) (e : Editor Playback) :
    replay display [] e = ([], e) := rfl

/-- Nothing happens once the snapshots are through. -/
theorem replay_of_isFinished (display : DisplaySettings) (dues : List Nat) {e : Editor Playback}
    (h : e.interpreter.isFinished = true) : replay display dues e = ([], e) := by
  cases dues <;> simp [replay, h]

/-- A run: what it puts out, and the editor that it leaves. -/
def run (settings : Settings) (dues : List Nat) (e : Editor Playback) :
    List Output × Except Fault (Editor Playback) :=
  if e.interpreter.length = 0 then ([.notice .noSnapshots], .ok e)
  else
    let selected := select settings.simulation.selectEvent e
    let selection := selected.notices.map .notice
    match selected.answer with
    | .error fault => (selection, .error fault)
    | .ok () =>
      let entered := selected.state.setScriptMode true
      let (shown, e) := replay settings.display dues entered.state
      let left := e.setScriptMode false
      let outputs :=
        selection ++ [.simulation e.interpreter.length] ++ entered.notices.map .notice ++ shown
          ++ left.notices.map .notice
      if left.state.projector.highlights.isEmpty then
        (outputs ++ [.notice .simulationFinished], .ok left.state)
      else (outputs, .error .highlightsRemain)

end Simulation

end RobotProgram
