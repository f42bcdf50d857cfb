import RobotProgram.Proofs.Editor.Freeze
import RobotProgram.Proofs.Projector.Projection

/-!
# What is lit while a script runs

In script mode the program stands still, so that places and handles mean the same throughout, and
what is lit is determined by the projections since script mode was entered: the events by the last
one, and the commands of an event by the last one that was made while the event was selected.

## Main definitions

* `Editor.LitBy`: what is lit is what some projections have lit.
* `Editor.Mirrors`: in script mode the highlights are those that some projections have made.
* `Editor.projection?`: the projection that a step makes, if it makes one.
* `Editor.sinceEntering`: the projections of a run since script mode was last entered.
-/

namespace RobotProgram.Editor

variable {ι : Type} {e : Editor ι} {shown : List Projection}

/-! ## What is lit -/

/--
What is lit is what some projections have lit. The event at a place is lit just if the place is among
the running ones of the last projection. Of each event that command is lit that stands at the last
number of its sequence in the last projection that was made while it was selected.
-/
structure LitBy (e : Editor ι) (shown : List Projection) : Prop where
  events : ∀ place h event, e.program.entries[place]? = some (h, event) →
    (e.projector.highlights.hasEvent h = true ↔
      ∃ last ∈ shown.getLast?, (last.status.get? place).isSome = true)
  commands : ∀ place h event, e.program.entries[place]? = some (h, event) → ∀ c,
    (e.projector.highlights.hasCommand h c = true ↔
      ∃ last ∈ (shown.filter (·.selected = some h)).getLast?,
        ∃ places number command, last.status.get? place = some places ∧
          places.getLast? = some number ∧ event.routine.entries[number]? = some (c, command))
  /-- What is lit is there: every lit event, and every lit command in its event. -/
  registered : ∀ h, e.projector.highlights.hasEvent h = true → e.program.events.contains h = true
  owned : ∀ h c, e.projector.highlights.hasCommand h c = true →
    ∃ event, e.program.events.find? h = some event ∧ event.routine.commands.contains c = true
  single : ∀ h c d, e.projector.highlights.hasCommand h c = true →
    e.projector.highlights.hasCommand h d = true → c = d

/-- In script mode the highlights are those that some projections have made. -/
def Mirrors (e : Editor ι) (shown : List Projection) : Prop :=
  e.scriptMode = true → Highlights.Reflects e.program.entries shown e.projector.highlights

theorem LitBy.of_reflects (wf : e.program.WellFormed)
    (reflects : Highlights.Reflects e.program.entries shown e.projector.highlights) :
    e.LitBy shown where
  events place h event at_ := reflects.events at_
  commands place h event at_ c := by
    have routine := (wf.routines (h, event) (List.mem_of_getElem? at_)).commands
    rw [reflects.commands at_ c]
    simp only [Highlights.current?_eq_some_iff routine]
  registered h lit := by
    have mem := reflects.known h (.inl lit)
    rw [Program.entries, wf.events.map_fst_entries] at mem
    exact wf.events.contains_iff.mpr mem
  owned h c lit := by
    obtain ⟨place, event, at_⟩ := Roster.exists_place (reflects.known h (.inr ⟨c, lit⟩))
    have mem := List.mem_of_getElem? at_
    have routine := (wf.routines _ mem).commands
    obtain ⟨last, -, current⟩ := (reflects.commands at_ c).mp lit
    obtain ⟨places, number, command, -, -, entry⟩ :=
      (Highlights.current?_eq_some_iff routine).mp current
    have found := (routine.getElem?_entries.mp entry).2
    exact ⟨event, wf.events.mem_entries_iff.mp mem, by simp [Roster.contains, found]⟩
  single h c d := reflects.command_unique

/-! ## Steps -/

variable [StatusSource ι]

/-- Entering script mode lights nothing by itself. -/
theorem highlights_enter :
    (e.apply (.scriptMode true)).state.projector.highlights = e.projector.highlights := by
  simp only [apply, setScriptMode, Outcome.state_map, if_true]
  unfold Projector.start
  split <;> rfl

/-- A look projects what the interpreter reports, or nothing. -/
theorem highlights_pump :
    e.pump.state.projector.highlights =
      if e.pump.answer then
        e.projector.highlights.project e.program (StatusSource.report e.interpreter).1
      else e.projector.highlights := by
  rcases e.pump_cases with ⟨-, idle, same⟩ | ⟨-, -, answer, projected⟩
  · rw [same, idle]
    rfl
  · rw [projected, answer]
    rfl

/-- The projection that a step makes: of what the interpreter reports, if a look is answered so. -/
def projection? (e : Editor ι) : Step ι → Option Projection
  | .pump =>
    if e.pump.answer then some ⟨(StatusSource.report e.interpreter).1, e.program.selected⟩ else none
  | _ => none

/-- A step that does not leave script mode lights what its projection says, if it makes one. -/
theorem highlights_apply (wf : e.program.events.WellFormed)
    (displayed : e.displayed = e.program.selected) {step : Step ι}
    (stays : step ≠ .scriptMode false) :
    (e.apply step).state.projector.highlights =
      (e.projection? step).elim e.projector.highlights fun p =>
        Highlights.projectFrom p.status p.selected 0 e.program.entries e.projector.highlights := by
  by_cases edits : step.edits = true
  · have same := congrArg Projector.highlights (edited_apply wf displayed edits).projector_eq
    cases step with
    | pump => cases edits
    | _ => exact same
  · cases step with
    | scriptMode on =>
      cases on with
      | false => exact absurd rfl stays
      | true => exact highlights_enter
    | pump =>
      simp only [apply, Outcome.state_map, projection?]
      rw [highlights_pump]
      split <;> rfl
    | fire | interpreter => rfl
    | _ => exact absurd rfl edits

/-! ## Runs -/

/--
The projections of a run since script mode was last entered, that is, went from off to on; `shown`
are those before the run.
-/
def sinceEntering (e : Editor ι) (shown : List Projection) : List (Step ι) → List Projection
  | [] => shown
  | step :: rest =>
    if e.scriptMode = false ∧ (e.apply step).state.scriptMode = true then
      (e.apply step).state.sinceEntering [] rest
    else (e.apply step).state.sinceEntering (shown ++ (e.projection? step).toList) rest

namespace Coherent

variable (coherent : e.Coherent) (wf : e.program.WellFormed) {step : Step ι}
include coherent wf

/-- Only setting the mode turns it on. -/
theorem eq_scriptMode_of_entering (off : e.scriptMode = false)
    (on : (e.apply step).state.scriptMode = true) : step = .scriptMode true := by
  by_cases mode : ∃ b, step = .scriptMode b
  · obtain ⟨b, rfl⟩ := mode
    have same : b = true := on
    rw [same]
  · have change := change_apply coherent.displayed wf.events fun b hb => mode ⟨b, hb⟩
    rw [(coherent.change wf change).2.2, off] at on
    cases on

theorem mirrors_of_entering (off : e.scriptMode = false)
    (on : (e.apply step).state.scriptMode = true) : (e.apply step).state.Mirrors [] := by
  obtain rfl := coherent.eq_scriptMode_of_entering wf off on
  intro _
  rw [highlights_enter, coherent.dark off]
  exact Highlights.reflects_none _

/-- Within script mode the places stay, and a projection is added to those that were made. -/
theorem mirrors_apply (mirrors : e.Mirrors shown) (within : e.scriptMode = true) :
    (e.apply step).state.Mirrors (shown ++ (e.projection? step).toList) := by
  intro on
  have stays : step ≠ .scriptMode false := by
    rintro rfl
    cases on
  have frozen := (coherent.frozen_apply wf within stays).1
  have same : (e.apply step).state.program.entries = e.program.entries := by
    rw [Program.entries, frozen]
    rfl
  rw [same, highlights_apply wf.events coherent.displayed stays]
  cases e.projection? step with
  | none => simpa using mirrors within
  | some p => exact (mirrors within).project wf.events.nodup_entries p.status p.selected

theorem mirrors_run (mirrors : e.Mirrors shown) (steps : List (Step ι)) :
    (e.run steps).Mirrors (e.sinceEntering shown steps) := by
  induction steps generalizing e shown with
  | nil => exact mirrors
  | cons step steps ih =>
    obtain ⟨wf', coherent'⟩ := coherent.apply wf step
    rw [sinceEntering]
    split
    · rename_i entering
      exact ih coherent' wf' (coherent.mirrors_of_entering wf entering.1 entering.2)
    · rename_i inside
      refine ih coherent' wf' fun on => ?_
      have within : e.scriptMode = true := by
        by_contra off
        exact inside ⟨eq_false_of_ne_true off, on⟩
      exact coherent.mirrors_apply wf mirrors within on

end Coherent

/--
However an editor got into script mode and whatever was done since, what is lit is what the
projections have lit that were made since it was entered.
-/
theorem litBy_run_new (settings : EngineSettings) (interpreter : ι) (steps : List (Step ι))
    (on : ((new settings interpreter).run steps).scriptMode = true) :
    ((new settings interpreter).run steps).LitBy
      ((new settings interpreter).sinceEntering [] steps) := by
  have coherent := coherent_new settings interpreter
  have mirrors : (new settings interpreter).Mirrors [] := fun on => by cases on
  exact .of_reflects (coherent.run Program.wellFormed_empty steps).1
    (coherent.mirrors_run Program.wellFormed_empty mirrors steps on)

/-- Looks at a program in a second script run twice, and selects another event in between. -/
def watching : List (Step Reporter) :=
  [.addEvent .start none, .addCommand .wait fun _ _ => .accepted none,
    .addCommand .tone fun _ _ => .accepted none, .addEvent .tip none,
    .addCommand .wait fun _ _ => .accepted none, .scriptMode true, .fire 1, .pump,
    .scriptMode false, .selectEvent ⟨1⟩, .scriptMode true,
    .interpreter fun r => { r with status := .ofEntries [(1, [0]), (0, [0, 1])] }, .fire 2, .pump,
    .selectEvent ⟨2⟩, .interpreter fun r => { r with status := .ofEntries [(1, [0, 7, 0])] },
    .fire 1, .pump]

/-- The first event runs no more, but its command stays lit, since it was not selected any more. -/
theorem litBy_watching :
    ((new {} (Reporter.mk .empty 0)).run watching).scriptMode = true ∧
      ((new {} (Reporter.mk .empty 0)).sinceEntering [] watching).length = 2 ∧
      ((new {} (Reporter.mk .empty 0)).run watching).LitBy
        ((new {} (Reporter.mk .empty 0)).sinceEntering [] watching) ∧
      ((new {} (Reporter.mk .empty 0)).run watching).projector.highlights =
        ⟨[⟨2⟩], [(⟨1⟩, ⟨2⟩), (⟨2⟩, ⟨1⟩)]⟩ := by
  exact ⟨by decide, by decide, litBy_run_new {} _ watching (by decide), by decide⟩

end RobotProgram.Editor
