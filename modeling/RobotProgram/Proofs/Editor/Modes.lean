import RobotProgram.Proofs.Editor.Edits
import RobotProgram.Proofs.Projector.Projection

/-!
# The modes of the editor

Whether a script runs is kept in five places, and the displayed event is a copy of the selected one.
What a step can do is said once, by `Change`; that the five places and the copy agree after any
steps is read off it.

## Main definitions

* `Editor.Change`: what a step can do, other than entering and leaving script mode.
* `Editor.Coherent`: the mode, the locks, the projector and the ticker agree, and so do display and
  selection.
-/

namespace RobotProgram

namespace Editor

variable {ι : Type} {e : Editor ι}

/-! ## Looking at the ticker -/

/-- A look projects if the projector is running and ticks are due, else it changes nothing. -/
theorem pump_cases [StatusSource ι] (e : Editor ι) :
    (e.projector.running = false ∨ e.projector.ticker.pending = 0) ∧ e.pump.answer = false ∧
        e.pump.state = e ∨
      e.projector.running = true ∧ e.projector.ticker.pending ≠ 0 ∧ e.pump.answer = true ∧
        e.pump.state = { e with
          projector := ({ e.projector with ticker := e.projector.ticker.take.2 }.project e.program
            (StatusSource.report e.interpreter).1).state
          interpreter := (StatusSource.report e.interpreter).2 } := by
  rcases e.projector.poll_cases e.program e.interpreter with
    ⟨still, answer, state⟩ | ⟨running, due, answer, state⟩
  · exact .inl ⟨still, answer, by rw [pump, Outcome.state_lift, state]⟩
  · exact .inr ⟨running, due, answer, by rw [pump, Outcome.state_lift, state]⟩

/-! ## Steps -/

/-- What a step that does not set the mode can do to an editor. -/
inductive Change (e : Editor ι) : Editor ι → Prop where
  | refl : Change e e
  | edit (edit : Program.Edit) (plain : edit.setsLock = false) :
      Change e { e with
        program := (e.program.apply edit).state
        displayed := (e.program.apply edit).state.selected }
  | outside (projector : Projector) (interpreter : ι)
      (running : projector.running = e.projector.running)
      (ticking : projector.ticker.isRunning = e.projector.ticker.isRunning)
      (dark : e.projector.running = false → projector.highlights = e.projector.highlights) :
      Change e { e with projector, interpreter }

theorem Edited.change {rejected : Bool} {e' : Editor ι} (edited : Edited e rejected e') :
    Change e e' := by
  cases edited with
  | nothing => exact .refl
  | edit edit plain => exact .edit edit plain

theorem change_apply [StatusSource ι] (shown : e.displayed = e.program.selected)
    (wf : e.program.events.WellFormed) {step : Step ι} (plain : ∀ on, step ≠ .scriptMode on) :
    Change e (e.apply step).state := by
  by_cases edits : step.edits = true
  · exact (edited_apply wf shown edits).change
  · cases step with
    | scriptMode on => exact absurd rfl (plain on)
    | fire times =>
      exact .outside _ e.interpreter rfl (Ticker.isRunning_fire _ times) fun _ => rfl
    | interpreter change => exact .outside e.projector _ rfl rfl fun _ => rfl
    | pump =>
      rw [apply, Outcome.state_map]
      rcases e.pump_cases with ⟨-, -, same⟩ | ⟨running, -, -, projected⟩
      · rw [same]
        exact .refl
      · rw [projected]
        exact .outside _ _ rfl rfl fun still => by simp [running] at still
    | _ => exact absurd rfl edits

/-! ## The invariant -/

/-- The mode, the locks, the projector and the ticker agree, and so do display and selection. -/
structure Coherent (e : Editor ι) : Prop where
  locked : e.program.locked = e.scriptMode
  routines : ∀ entry ∈ e.program.entries, entry.2.routine.locked = e.scriptMode
  projecting : e.projector.running = e.scriptMode
  ticking : e.projector.ticker.isRunning = e.scriptMode
  displayed : e.displayed = e.program.selected
  /-- The selected event is one of the program. -/
  registered : ∀ h ∈ e.program.selected, e.program.events.contains h = true
  /-- Nothing is lit while no script runs. -/
  dark : e.scriptMode = false → e.projector.highlights = .none

theorem coherent_new (settings : EngineSettings) (interpreter : ι) :
    (new settings interpreter).Coherent where
  locked := rfl
  routines := by simp [new, Program.empty, Program.entries, Roster.entries, Roster.empty]
  projecting := rfl
  ticking := rfl
  displayed := rfl
  registered := by simp [new, Program.empty]
  dark _ := rfl

namespace Coherent

theorem locksAgree (coherent : e.Coherent) : e.program.LocksAgree :=
  fun entry he => (coherent.routines entry he).trans coherent.locked.symm

theorem change {e' : Editor ι} (coherent : e.Coherent) (wf : e.program.WellFormed)
    (change : Change e e') :
    e'.program.WellFormed ∧ e'.Coherent ∧ e'.scriptMode = e.scriptMode := by
  cases change with
  | refl => exact ⟨wf, coherent, rfl⟩
  | edit edit plain =>
    have wf' := wf.apply edit
    obtain ⟨agree, same⟩ := coherent.locksAgree.apply plain wf
    have locked := same.trans coherent.locked
    exact ⟨wf', ⟨locked, fun entry he => (agree entry he).trans locked, coherent.projecting,
      coherent.ticking, rfl, fun h hh => wf'.events.contains_iff.mpr (wf'.selected h hh),
      coherent.dark⟩, rfl⟩
  | outside projector interpreter running ticking dark =>
    refine ⟨wf, ⟨coherent.locked, coherent.routines, running.trans coherent.projecting,
      ticking.trans coherent.ticking, coherent.displayed, coherent.registered, fun off => ?_⟩, rfl⟩
    exact (dark (coherent.projecting.trans off)).trans (coherent.dark off)

theorem setScriptMode (coherent : e.Coherent) (wf : e.program.WellFormed) (on : Bool) :
    (e.setScriptMode on).state.Coherent where
  locked := rfl
  routines := Program.locksAgree_setLock e.program on
  projecting := by
    cases on with
    | false => rfl
    | true =>
      simp only [Editor.setScriptMode, Projector.start, if_true]
      split
      · assumption
      · rfl
  ticking := by
    cases on with
    | false => rfl
    | true =>
      simp only [Editor.setScriptMode, Projector.start, if_true]
      split
      · rename_i running
        exact coherent.ticking.trans (coherent.projecting.symm.trans running)
      · rfl
  displayed := coherent.displayed
  registered h hh := (wf.setLock on).events.contains_iff.mpr ((wf.setLock on).selected h hh)
  dark off := by
    cases off
    rfl

variable [StatusSource ι]

theorem apply (coherent : e.Coherent) (wf : e.program.WellFormed) (step : Step ι) :
    (e.apply step).state.program.WellFormed ∧ (e.apply step).state.Coherent := by
  by_cases mode : ∃ on, step = .scriptMode on
  · obtain ⟨on, rfl⟩ := mode
    exact ⟨wf.setLock on, coherent.setScriptMode wf on⟩
  · have change := change_apply coherent.displayed wf.events fun on he => mode ⟨on, he⟩
    obtain ⟨wf', coherent', -⟩ := coherent.change wf change
    exact ⟨wf', coherent'⟩

theorem run (coherent : e.Coherent) (wf : e.program.WellFormed) (steps : List (Step ι)) :
    (e.run steps).program.WellFormed ∧ (e.run steps).Coherent := by
  induction steps generalizing e with
  | nil => exact ⟨wf, coherent⟩
  | cons step steps ih =>
    obtain ⟨wf', coherent'⟩ := coherent.apply wf step
    exact ih coherent' wf'

end Coherent

/-- Whatever is done with a new editor, all that depends on the mode agrees with it. -/
theorem coherent_run_new [StatusSource ι] (settings : EngineSettings) (interpreter : ι)
    (steps : List (Step ι)) : ((new settings interpreter).run steps).Coherent :=
  ((coherent_new settings interpreter).run Program.wellFormed_empty steps).2

end Editor

end RobotProgram
