import RobotProgram.Proofs.Editor.Modes

/-!
# Rejections change nothing

An operation that ends in a fault, that is answered with a refusal, or that is a load ignored while
a script runs, leaves everything as it was, be it an operation of a routine, of a program or of an
editor.
-/

namespace RobotProgram

namespace Editor

variable {ι : Type} [StatusSource ι] {e : Editor ι}

/-! ## Steps -/

theorem state_of_rejects (wf : e.program.events.WellFormed)
    (shown : e.displayed = e.program.selected) {step : Step ι} (rejected : e.rejects step = true) :
    (e.apply step).state = e := by
  by_cases edits : step.edits = true
  · have edited := edited_apply wf shown edits
    rw [rejected] at edited
    exact edited.eq_self wf shown
  · cases step with
    | scriptMode | fire | interpreter => cases rejected
    | pump =>
      have idle : e.pump.answer = false := by
        simpa [rejects, ignores, refused, apply, Reply.rejects] using rejected
      rcases e.pump_cases with ⟨-, -, same⟩ | ⟨-, -, projected, -⟩
      · exact same
      · rw [idle] at projected
        cases projected
    | _ => exact absurd rfl edits

/--
Whatever is rejected leaves everything as it was: in any routine, in any program that can come about,
and in any editor.
-/
theorem unchanged_of_rejects :
    (∀ (r : Routine) (edit : Routine.Edit), r.rejects edit = true → (r.apply edit).state = r) ∧
      (∀ (edits : List Program.Edit) (edit : Program.Edit),
        (Program.empty.run edits).rejects edit = true →
          ((Program.empty.run edits).apply edit).state = Program.empty.run edits) ∧
      ∀ (settings : EngineSettings) (interpreter : ι) (steps : List (Step ι)) (step : Step ι),
        ((new settings interpreter).run steps).rejects step = true →
          (((new settings interpreter).run steps).apply step).state =
            (new settings interpreter).run steps := by
  refine ⟨fun r edit => Routine.state_of_rejects, fun edits edit => ?_, ?_⟩
  · exact Program.state_of_rejects (Program.wellFormed_empty.run edits).events
  · intro settings interpreter steps step
    obtain ⟨wf, coherent⟩ :=
      (coherent_new settings interpreter).run Program.wellFormed_empty steps
    exact state_of_rejects wf.events coherent.displayed

/-- Writes two events, of which the second has a command. -/
def drafting : List (Step Reporter) :=
  [.addEvent .start none, .addEvent .tip none, .addCommand .wait fun _ _ => .accepted none]

/-- A program of two events, the last of which has a command of no known kind. -/
def misnamed : List EventRecord :=
  [⟨"InitEventGUI", "InitEvent", none, []⟩,
    ⟨"TipEventGUI", "TipEvent", none,
      [⟨"WaitCommandGUI", "WaitCommand", none⟩, ⟨"FlyCommandGUI", "FlyCommand", none⟩]⟩]

/-- A stale handle among others, an unknown kind in the last record, and a declined question. -/
theorem unchanged_drafting :
    ((Routine.empty.run [.add .wait none]).rejects (.delete [⟨1⟩, ⟨2⟩]) = true ∧
      ((Routine.empty.run [.add .wait none]).apply (.delete [⟨1⟩, ⟨2⟩])).state =
        Routine.empty.run [.add .wait none]) ∧
    ((Program.empty.run [.add .start none []]).rejects (.load misnamed true) = true ∧
      ((Program.empty.run [.add .start none []]).apply (.load misnamed true)).state =
        Program.empty.run [.add .start none []]) ∧
    ((new {} (Reporter.mk .empty 0)).run drafting).rejects (.deleteEvent false) = true ∧
      (((new {} (Reporter.mk .empty 0)).run drafting).apply (.deleteEvent false)).state =
        (new {} (Reporter.mk .empty 0)).run drafting := by
  obtain ⟨routine, program, editor⟩ := unchanged_of_rejects (ι := Reporter)
  have stale : (Routine.empty.run [.add .wait none]).rejects (.delete [⟨1⟩, ⟨2⟩]) = true := by
    decide
  have unknown : (Program.empty.run [.add .start none []]).rejects (.load misnamed true) = true := by
    decide
  have declined :
      ((new {} (Reporter.mk .empty 0)).run drafting).rejects (.deleteEvent false) = true := by
    decide
  exact ⟨⟨stale, routine _ _ stale⟩, ⟨unknown, program _ _ unknown⟩, declined,
    editor _ _ _ _ declined⟩

end Editor

end RobotProgram
