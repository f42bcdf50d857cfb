import RobotProgram.Editor
import RobotProgram.Proofs.Program.Rejection

/-!
# What the steps of an editor come to

A step that edits the program comes to one operation on it, after which the selected event is
displayed, or it comes to nothing. If the step is rejected, so is the operation. What is said of
editing steps elsewhere is read off this.

## Main definitions

* `Editor.rejects`: whether a step is rejected.
* `Editor.Step.edits`: whether a step edits the program, if it does anything.
* `Editor.Edited`: what an editing step comes to.
-/

namespace RobotProgram.Editor

variable {ι : Type}

/-! ## Rejections -/

def Reply.rejects : Reply → Bool
  | .event h _ => h.isNone
  | .deletion outcome _ => outcome.rejects
  | .replacement outcome _ => outcome.all Replacement.rejects
  | .command h _ => h.isNone
  | .edited stored _ => !stored
  | .deleted count => count == 0
  | .moved made => !made
  | .pumped projected => !projected
  | .done => false

/-- Loading is passed over in script mode, and while the program is locked. -/
def ignores (e : Editor ι) : Step ι → Bool
  | .load _ => e.scriptMode || e.program.locked
  | _ => false

def rejects [StatusSource ι] (e : Editor ι) (step : Step ι) : Bool :=
  refused Reply.rejects (e.apply step).answer || e.ignores step

/-! ## Editing -/

/-- Whether a step edits the program, if it does anything. -/
def Step.edits : Step ι → Bool
  | .scriptMode _ | .fire _ | .interpreter _ | .pump => false
  | _ => true

/-- What an editing step can do, given whether it is rejected. -/
inductive Edited (e : Editor ι) (rejected : Bool) : Editor ι → Prop where
  | nothing : Edited e rejected e
  | edit (edit : Program.Edit) (plain : edit.setsLock = false)
      (rejects : rejected = true → e.program.rejects edit = true) :
      Edited e rejected { e with
        program := (e.program.apply edit).state
        displayed := (e.program.apply edit).state.selected }

variable {e e' : Editor ι}

namespace Edited

variable {rejected rejected' : Bool}

theorem mono (edited : Edited e rejected e') (weaker : rejected' = true → rejected = true) :
    Edited e rejected' e' := by
  cases edited with
  | nothing => exact .nothing
  | edit edit plain rejects => exact .edit edit plain fun h => rejects (weaker h)

theorem projector_eq (edited : Edited e rejected e') : e'.projector = e.projector := by
  cases edited <;> rfl

/-- What is rejected changes nothing, so that what is displayed stays as well. -/
theorem eq_self (edited : Edited e true e') (wf : e.program.events.WellFormed)
    (shown : e.displayed = e.program.selected) : e' = e := by
  cases edited with
  | nothing => rfl
  | edit edit plain rejects => rw [Program.state_of_rejects wf (rejects rfl), ← shown]

end Edited

/-! ### Operations on the program -/

section Program

variable {ρ : Type}

theorem answer_refreshedUnlessFault (e : Editor ι) (o : Outcome Program (Except Fault ρ)) :
    (e.refreshedUnlessFault o).answer = o.answer := by
  unfold refreshedUnlessFault
  split
  · rfl
  · rename_i fault failed
    exact failed.symm

/-- An operation on the program; when it fails, display and program stay as they are. -/
theorem edited_program (wf : e.program.events.WellFormed) {o : Outcome Program (Except Fault ρ)}
    {f : ρ → Program.Reply} (edit : Program.Edit) (plain : edit.setsLock = false)
    (same : e.program.apply edit = o.map (.map f)) {rejected : Bool}
    (rejects : rejected = true → e.program.rejects edit = true) :
    Edited e rejected (e.refreshedUnlessFault o).state := by
  have state : (e.program.apply edit).state = o.state := by rw [same, Outcome.state_map]
  unfold refreshedUnlessFault
  split
  · have edited := Edited.edit edit plain rejects
    rwa [state] at edited
  -- the display is not refreshed here, which is right because nothing has changed
  · rename_i fault failed
    have kept : (e.program.apply edit).state = e.program :=
      Program.state_of_fault _ wf (by rw [same, Outcome.answer_map, failed]; rfl)
    rw [← state, kept]
    exact .nothing

theorem edited_addEvent (e : Editor ι) (kind : EventKind) (parameters : Parameters) :
    Edited e (e.addEvent kind parameters).answer.isNone (e.addEvent kind parameters).state := by
  refine .edit (.add kind parameters []) rfl fun none => ?_
  refine Program.rejects_of_refused (f := .added) rfl ?_
  cases answer : (e.program.add kind parameters []).answer with
  | ok h =>
    simp only [addEvent, refreshed, Outcome.answer_map, answer] at none
    exact none
  | error fault => rfl

theorem edited_replaceSelectedEvent (wf : e.program.events.WellFormed)
    (choice : Option EventChoice) :
    Edited e (refused (Option.all Replacement.rejects) (e.replaceSelectedEvent choice).answer.1)
      (e.replaceSelectedEvent choice).state := by
  unfold replaceSelectedEvent
  split
  · exact .nothing
  split
  · exact .nothing
  · rename_i h selected _ choice
    refine edited_program wf (.replace h choice.kind choice.parameters) rfl rfl fun rejected => ?_
    rw [Outcome.answer_map, refused_map, answer_refreshedUnlessFault] at rejected
    exact Program.rejects_of_refused (f := .replacement) rfl rejected

end Program

/-! ### Operations on the displayed routine -/

section Routine

variable {ρ : Type} (shown : e.displayed = e.program.selected)
include shown

/-- An operation on the routine of the displayed event is one on the program. -/
theorem edited_inEvent {h : Handle Event} {routine : Routine}
    (displayed : e.displayedEntry? = some (h, routine)) {o : Outcome Routine ρ}
    (edit : Routine.Edit) (plain : (Program.Edit.inEvent h edit).setsLock = false)
    (same : o.state = (routine.apply edit).state) {rejected : Bool}
    (rejects : rejected = true → routine.rejects edit = true) :
    Edited e rejected (e.inEvent h o).state := by
  simp only [Option.bind_eq_bind, Option.bind_eq_some_iff, displayedEntry?] at displayed
  obtain ⟨h', -, event, found, eq⟩ := displayed
  obtain ⟨rfl, rfl⟩ := Prod.mk.inj (Option.some.inj eq)
  have state : (e.program.apply (.inEvent h' edit)).state =
      e.program.setRoutine h' (event.routine.apply edit).state := by
    rw [Program.apply, Outcome.state_map, Program.inEvent, found, Outcome.state_lift]
  have edited := Edited.edit (.inEvent h' edit) plain fun h =>
    (Program.rejects_inEvent found edit).trans (rejects h)
  rw [state, ← same] at edited
  change Edited e rejected { e with
    program := e.program.setRoutine h' o.state, displayed := e.program.selected } at edited
  rwa [← shown] at edited

theorem edited_dropCommand (kind : CommandKind) (index : Nat) (dialog : Dialog) :
    Edited e (e.dropCommand kind index dialog).answer.1.isNone
      (e.dropCommand kind index dialog).state := by
  unfold dropCommand
  split
  · exact .nothing
  split
  · exact .nothing
  split
  · exact .nothing
  split
  · exact .nothing
  · rename_i parameters _ _ h routine displayed
    refine edited_inEvent shown displayed (.insert kind parameters index) rfl rfl fun none => ?_
    refine Bool.or_eq_true_iff.mpr (.inl ?_)
    exact none

theorem edited_editCommand (c : Handle Command) (dialog : Dialog) :
    Edited e (refused (!·) (e.editCommand c dialog).answer.1) (e.editCommand c dialog).state := by
  unfold editCommand
  split
  · exact .nothing
  · rename_i h routine displayed
    split
    · exact .nothing
    split
    · exact .nothing
    dsimp only
    split
    · exact .nothing
    · rename_i parameters _
      refine edited_inEvent shown displayed (.update c parameters) rfl rfl fun rejected => ?_
      exact Routine.rejects_of_refused (f := .changed) rfl rejected

theorem edited_deleteCommands (handles : List (Handle Command)) :
    Edited e (refused (· == 0) (e.deleteCommands handles).answer)
      (e.deleteCommands handles).state := by
  unfold deleteCommands
  split
  · exact .nothing
  · rename_i h routine displayed
    refine edited_inEvent shown displayed (.delete handles) rfl rfl fun rejected => ?_
    exact Routine.rejects_of_refused (f := .deleted) rfl rejected

theorem edited_moveCommand (c : Handle Command) (index : Nat) :
    Edited e (refused (!·) (e.moveCommand c index).answer) (e.moveCommand c index).state := by
  unfold moveCommand
  split
  · exact .nothing
  · rename_i h routine displayed
    refine edited_inEvent shown displayed (.move c index) rfl rfl fun rejected => ?_
    exact Routine.rejects_of_refused (f := .changed) rfl rejected

end Routine

/-! ### Steps -/

theorem edited_apply [StatusSource ι] (wf : e.program.events.WellFormed)
    (shown : e.displayed = e.program.selected) {step : Step ι} (edits : step.edits = true) :
    Edited e (e.rejects step) (e.apply step).state := by
  have refusal {step : Step ι} (heeds : e.ignores step = false) (rejected : e.rejects step = true) :
      refused Reply.rejects (e.apply step).answer = true := by
    rwa [rejects, heeds, Bool.or_false] at rejected
  cases step with
  | addEvent kind parameters => exact (e.edited_addEvent kind parameters).mono (refusal rfl)
  | promptAddEvent choice =>
    cases choice with
    | none => exact .nothing
    | some choice =>
      exact (e.edited_addEvent choice.kind choice.parameters).mono (refusal rfl)
  | selectEvent h =>
    refine edited_program wf (.select h) rfl rfl fun rejected => ?_
    have refused := refusal rfl rejected
    rw [apply, Outcome.answer_map, selectEvent, answer_refreshedUnlessFault, refused_map] at refused
    exact Program.rejects_of_refused rfl refused
  | clearSelection => exact .edit .clearSelection rfl (refusal rfl)
  | refresh =>
    have same : e.refresh = e := by rw [refresh, ← shown]
    exact (congrArg (Edited e _) same).mpr .nothing
  | deleteEvent answer =>
    refine edited_program wf (.deleteSelected answer e.settings.deleteQuestion) rfl rfl
      fun rejected => ?_
    have refused := refusal rfl rejected
    rw [apply, Outcome.answer_map, deleteSelectedEvent, answer_refreshedUnlessFault,
      refused_map] at refused
    exact Program.rejects_of_refused rfl refused
  | replaceEvent choice =>
    refine (edited_replaceSelectedEvent wf choice).mono fun rejected => ?_
    have refused := refusal rfl rejected
    rwa [apply, Outcome.answer_map, refused_map] at refused
  | addCommand kind dialog => exact (edited_dropCommand shown kind _ dialog).mono (refusal rfl)
  | dropCommand kind index dialog =>
    exact (edited_dropCommand shown kind index dialog).mono (refusal rfl)
  | editCommand c dialog =>
    refine (edited_editCommand shown c dialog).mono fun rejected => ?_
    have refused := refusal rfl rejected
    rwa [apply, Outcome.answer_map, refused_map] at refused
  | deleteCommands handles =>
    refine (edited_deleteCommands shown handles).mono fun rejected => ?_
    have refused := refusal rfl rejected
    rwa [apply, Outcome.answer_map, refused_map] at refused
  | moveCommand c index =>
    refine (edited_moveCommand shown c index).mono fun rejected => ?_
    have refused := refusal rfl rejected
    rwa [apply, Outcome.answer_map, refused_map] at refused
  | load records =>
    simp only [apply, Outcome.state_map]
    unfold load
    split
    · exact .nothing
    · rename_i off
      refine edited_program wf (.load records e.settings.selectFirst) rfl rfl fun rejected => ?_
      rcases Bool.or_eq_true_iff.mp rejected with refused | ignored
      · rw [apply, Outcome.answer_map, load, if_neg off, answer_refreshedUnlessFault,
          refused_map] at refused
        exact Program.rejects_of_refused rfl refused
      · have locked : e.program.locked = true := by simpa [ignores, off] using ignored
        simp [Program.rejects, Program.ignores, locked]
  | scriptMode | fire | interpreter | pump => cases edits

end RobotProgram.Editor
