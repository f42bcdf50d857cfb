import RobotProgram.Proofs.Editor.Modes

/-!
# Script runs leave the program alone

Between entering and leaving script mode nothing that is done with the editor changes the program,
except that another event may be selected.

## Main definitions

* `Program.Frozen`: two programs are the same but for the selection.
* `Editor.scripted`: the editor after a script run with any steps.
-/

namespace RobotProgram

/-! ## Programs that differ in the selection -/

namespace Program

/-- The second program is the first one, with the same or another selection. -/
def Frozen (p q : Program) : Prop := q = { p with selected := q.selected }

variable {p q r : Program}

theorem Frozen.refl (p : Program) : Frozen p p := rfl

theorem Frozen.trans (h : Frozen p q) (g : Frozen q r) : Frozen p r := by
  rw [Frozen, g, h]

theorem Frozen.setLock (h : Frozen p q) (on : Bool) : Frozen (p.setLock on) (q.setLock on) := by
  rw [Frozen, h]
  rfl

end Program

namespace Editor

variable {ι : Type} {e : Editor ι}

/-! ## Steps in script mode -/

theorem Coherent.frozen_change {e' : Editor ι} (coherent : e.Coherent) (wf : e.program.WellFormed)
    (on : e.scriptMode = true) (change : Change e e') : e.program.Frozen e'.program := by
  cases change with
  | refl => exact .refl _
  | edit edit plain =>
    exact Program.apply_of_locked plain wf coherent.locksAgree (coherent.locked.trans on)
  | outside => exact .refl _

variable [StatusSource ι]

/-- In script mode a step that does not leave it keeps it, and keeps the program. -/
theorem Coherent.frozen_apply (coherent : e.Coherent) (wf : e.program.WellFormed)
    (on : e.scriptMode = true) {step : Step ι} (stays : step ≠ .scriptMode false) :
    e.program.Frozen (e.apply step).state.program ∧ (e.apply step).state.scriptMode = true := by
  by_cases mode : ∃ on, step = .scriptMode on
  · obtain ⟨again, rfl⟩ := mode
    cases again with
    | false => exact absurd rfl stays
    | true =>
      have same := Program.setLock_eq_self wf coherent.locksAgree
      rw [coherent.locked, on] at same
      have program : (e.apply (.scriptMode true)).state.program = e.program := same
      exact ⟨program ▸ .refl _, rfl⟩
  · have change := change_apply coherent.displayed wf.events fun on he => mode ⟨on, he⟩
    exact ⟨coherent.frozen_change wf on change, (coherent.change wf change).2.2.trans on⟩

theorem Coherent.frozen_run (coherent : e.Coherent) (wf : e.program.WellFormed)
    (on : e.scriptMode = true) {steps : List (Step ι)}
    (stays : ∀ step ∈ steps, step ≠ .scriptMode false) :
    e.program.Frozen (e.run steps).program := by
  induction steps generalizing e with
  | nil => exact .refl _
  | cons step steps ih =>
    obtain ⟨head, tail⟩ := List.forall_mem_cons.mp stays
    obtain ⟨wf', coherent'⟩ := coherent.apply wf step
    obtain ⟨frozen, on'⟩ := coherent.frozen_apply wf on head
    exact frozen.trans (ih coherent' wf' on' tail)

/-! ## Script runs -/

/-- The editor after a script run, in which steps are taken. -/
def scripted (e : Editor ι) (steps : List (Step ι)) : Editor ι :=
  (((e.setScriptMode true).state.run steps).setScriptMode false).state

/-- Leaving script mode undoes the lock that entering it has set, and all else was frozen. -/
theorem Coherent.frozen_scripted (coherent : e.Coherent) (wf : e.program.WellFormed)
    (off : e.scriptMode = false) {steps : List (Step ι)}
    (stays : ∀ step ∈ steps, step ≠ .scriptMode false) :
    e.program.Frozen (e.scripted steps).program := by
  have frozen : (e.program.setLock true).Frozen ((e.setScriptMode true).state.run steps).program :=
    (coherent.setScriptMode wf true).frozen_run (wf.setLock true) rfl stays
  have unlocked : e.program.setLock false = e.program := by
    have same := Program.setLock_eq_self wf coherent.locksAgree
    rwa [coherent.locked, off] at same
  have left := frozen.setLock false
  rwa [Program.setLock_setLock, unlocked] at left

/--
A script run changes nothing of a program but the selection, whatever is tried meanwhile, and leaves
it unlocked.
-/
theorem frozen_scripted_run_new (settings : EngineSettings) (interpreter : ι)
    (before steps : List (Step ι))
    (off : ((new settings interpreter).run before).scriptMode = false)
    (stays : ∀ step ∈ steps, step ≠ .scriptMode false) :
    ((new settings interpreter).run before).program.Frozen
        (((new settings interpreter).run before).scripted steps).program ∧
      (((new settings interpreter).run before).scripted steps).program.locked = false ∧
      ∀ entry ∈ (((new settings interpreter).run before).scripted steps).program.entries,
        entry.2.routine.locked = false := by
  obtain ⟨wf, coherent⟩ :=
    (coherent_new settings interpreter).run Program.wellFormed_empty before
  exact ⟨coherent.frozen_scripted wf off stays, rfl, Program.locksAgree_setLock _ false⟩

/-- Writes an event with one command. -/
def writing : List (Step Reporter) :=
  [.addEvent .start none, .addCommand .wait fun _ _ => .accepted none]

/-- Tries to change what was written in every way. -/
def meddling : List (Step Reporter) :=
  [.deleteCommands [⟨1⟩], .moveCommand ⟨1⟩ 0, .replaceEvent (some ⟨.keyPress, none⟩), .load [],
    .fire 1, .scriptMode true, .pump, .deleteEvent true, .clearSelection, .addEvent .tip none]

theorem frozen_scripted_meddling :
    ((new {} (Reporter.mk .empty 0)).run writing).program.commandCount = 1 ∧
      ((new {} (Reporter.mk .empty 0)).run writing).scriptMode = false ∧
      (∀ step ∈ meddling, step ≠ .scriptMode false) ∧
      ((new {} (Reporter.mk .empty 0)).run writing).program.Frozen
        (((new {} (Reporter.mk .empty 0)).run writing).scripted meddling).program := by
  have stays : ∀ step ∈ meddling, step ≠ .scriptMode false := by simp [meddling]
  exact ⟨by decide, rfl, stays, (frozen_scripted_run_new {} _ writing meddling rfl stays).1⟩

end Editor

end RobotProgram
