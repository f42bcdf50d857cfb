import RobotProgram.Proofs.Editor.Modes

/-!
# Polling is presentation only

What goes on around an editor, ticks that become due, looks at the ticker, changes of the
interpreter, and displaying the selection once more, shows in nothing but what is lit and in what
counts ticks. A run from which such steps are erased gives the same answers and leads to the same
program, selection and display.

## Main definitions

* `Editor.Step.presents`: whether a step is of this sort.
* `Editor.Erased`: a run and what is left of it.
* `Editor.Alike`: the same editor but for what such steps change.
-/

namespace RobotProgram

/-! ## Likeness -/

/-- The projectors run alike, whatever is lit, due or counted. -/
structure Projector.Alike (p q : Projector) : Prop where
  running : q.running = p.running
  interval : q.interval = p.interval
  ticking : q.ticker.interval = p.ticker.interval

namespace Projector.Alike

variable {p q r : Projector}

theorem refl (p : Projector) : p.Alike p := ⟨rfl, rfl, rfl⟩

theorem symm (h : p.Alike q) : q.Alike p := ⟨h.running.symm, h.interval.symm, h.ticking.symm⟩

theorem trans (h : p.Alike q) (k : q.Alike r) : p.Alike r :=
  ⟨k.running.trans h.running, k.interval.trans h.interval, k.ticking.trans h.ticking⟩

theorem start (h : p.Alike q) : p.start.state.Alike q.start.state := by
  unfold Projector.start
  rw [h.running]
  split
  · exact h
  · exact ⟨rfl, h.interval, congrArg some h.interval⟩

theorem stop (h : p.Alike q) : p.stop.state.Alike q.stop.state := ⟨rfl, h.interval, rfl⟩

theorem fire (p : Projector) (times : Nat) : p.Alike (p.fire times) := by
  refine ⟨rfl, rfl, ?_⟩
  simp only [Projector.fire, Ticker.fire]
  split <;> rfl

end Projector.Alike

namespace Editor

variable {ι : Type} {e f g : Editor ι}

/-- The editors are the same but for what is lit, the ticks due and counted, and the interpreter. -/
structure Alike (e f : Editor ι) : Prop where
  settings : f.settings = e.settings
  program : f.program = e.program
  displayed : f.displayed = e.displayed
  scriptMode : f.scriptMode = e.scriptMode
  projector : e.projector.Alike f.projector

namespace Alike

theorem refl (e : Editor ι) : e.Alike e := ⟨rfl, rfl, rfl, rfl, .refl _⟩

theorem symm (h : e.Alike f) : f.Alike e :=
  ⟨h.settings.symm, h.program.symm, h.displayed.symm, h.scriptMode.symm, h.projector.symm⟩

theorem trans (h : e.Alike f) (k : f.Alike g) : e.Alike g :=
  ⟨k.settings.trans h.settings, k.program.trans h.program, k.displayed.trans h.displayed,
    k.scriptMode.trans h.scriptMode, h.projector.trans k.projector⟩

theorem setScriptMode (h : e.Alike f) (on : Bool) :
    (e.setScriptMode on).state.Alike (f.setScriptMode on).state := by
  refine ⟨h.settings, congrArg (·.setLock on) h.program, h.displayed, rfl, ?_⟩
  cases on with
  | true => exact h.projector.start
  | false => exact h.projector.stop

end Alike

/-! ## Editing -/

/-- The editor with another projector and another interpreter. -/
def outside (e : Editor ι) (projector : Projector) (interpreter : ι) : Editor ι :=
  { e with projector, interpreter }

section Outside

variable (e : Editor ι) (projector : Projector) (interpreter : ι)

@[simp] theorem program_outside : (e.outside projector interpreter).program = e.program := rfl

@[simp] theorem displayed_outside : (e.outside projector interpreter).displayed = e.displayed := rfl

@[simp] theorem scriptMode_outside :
    (e.outside projector interpreter).scriptMode = e.scriptMode := rfl

@[simp] theorem entry_outside :
    Editor.displayedEntry? (e.outside projector interpreter) = e.displayedEntry? := rfl

theorem refreshedUnlessFault_outside {ρ : Type} (o : Outcome Program (Except Fault ρ)) :
    (e.outside projector interpreter).refreshedUnlessFault o =
      (e.refreshedUnlessFault o).lift (·.outside projector interpreter) := by
  unfold refreshedUnlessFault
  cases o.answer <;> rfl

theorem replaceSelectedEvent_outside (choice : Option EventChoice) :
    (e.outside projector interpreter).replaceSelectedEvent choice =
      (e.replaceSelectedEvent choice).lift (·.outside projector interpreter) := by
  unfold replaceSelectedEvent
  rw [program_outside]
  split
  · rfl
  split
  · rfl
  · rw [refreshedUnlessFault_outside]
    rfl

theorem dropCommand_outside (kind : CommandKind) (index : Nat) (dialog : Dialog) :
    (e.outside projector interpreter).dropCommand kind index dialog =
      (e.dropCommand kind index dialog).lift (·.outside projector interpreter) := by
  unfold dropCommand
  rw [displayed_outside, program_outside, entry_outside]
  split
  · rfl
  split
  · rfl
  split
  · rfl
  split <;> rfl

theorem editCommand_outside (c : Handle Command) (dialog : Dialog) :
    (e.outside projector interpreter).editCommand c dialog =
      (e.editCommand c dialog).lift (·.outside projector interpreter) := by
  unfold editCommand
  rw [program_outside, entry_outside]
  split
  · rfl
  split
  · rfl
  split
  · rfl
  dsimp only
  split <;> rfl

theorem deleteCommands_outside (handles : List (Handle Command)) :
    (e.outside projector interpreter).deleteCommands handles =
      (e.deleteCommands handles).lift (·.outside projector interpreter) := by
  unfold deleteCommands
  rw [entry_outside]
  split <;> rfl

theorem moveCommand_outside (c : Handle Command) (index : Nat) :
    (e.outside projector interpreter).moveCommand c index =
      (e.moveCommand c index).lift (·.outside projector interpreter) := by
  unfold moveCommand
  rw [entry_outside]
  split <;> rfl

theorem load_outside (records : List EventRecord) :
    (e.outside projector interpreter).load records =
      (e.load records).lift (·.outside projector interpreter) := by
  unfold load
  rw [scriptMode_outside]
  split
  · rfl
  · exact refreshedUnlessFault_outside e projector interpreter _

variable [StatusSource ι]

/-- Editing looks neither at the projector nor at the interpreter, and leaves both alone. -/
theorem apply_outside {step : Step ι} (edits : step.edits = true) :
    (e.outside projector interpreter).apply step =
      (e.apply step).lift (·.outside projector interpreter) := by
  cases step with
  | addEvent | clearSelection | refresh => rfl
  | promptAddEvent choice => cases choice <;> rfl
  | selectEvent h =>
    rw [apply, selectEvent, refreshedUnlessFault_outside]
    rfl
  | deleteEvent answer =>
    rw [apply, deleteSelectedEvent, refreshedUnlessFault_outside]
    rfl
  | replaceEvent choice =>
    rw [apply, replaceSelectedEvent_outside]
    rfl
  | addCommand kind dialog =>
    rw [apply, addCommand, dropCommand_outside]
    rfl
  | dropCommand kind index dialog =>
    rw [apply, dropCommand_outside]
    rfl
  | editCommand c dialog =>
    rw [apply, editCommand_outside]
    rfl
  | deleteCommands handles =>
    rw [apply, deleteCommands_outside]
    rfl
  | moveCommand c index =>
    rw [apply, moveCommand_outside]
    rfl
  | load records =>
    rw [apply, load_outside]
    rfl
  | scriptMode | fire | interpreter | pump => cases edits

end Outside

theorem Alike.eq_outside (h : e.Alike f) : f = e.outside f.projector f.interpreter := by
  obtain ⟨settings, program, displayed, scriptMode, -⟩ := h
  cases f
  simp_all [outside]

/-! ## Steps of the presentation -/

/-- Whether a step is about the presentation only, or about the interpreter. -/
def Step.presents : Step ι → Bool
  | .refresh | .fire _ | .interpreter _ | .pump => true
  | _ => false

section Steps

variable [StatusSource ι]

/-- Displaying the selection once more shows nothing new, as it is on display after every step. -/
theorem alike_apply_of_presents (shown : e.displayed = e.program.selected) {step : Step ι}
    (presents : step.presents = true) : e.Alike (e.apply step).state := by
  cases step with
  | refresh =>
    have same : (e.apply .refresh).state = e := by
      change e.refresh = e
      rw [refresh, ← shown]
    rw [same]
    exact .refl e
  | fire times => exact ⟨rfl, rfl, rfl, rfl, .fire e.projector times⟩
  | interpreter change => exact ⟨rfl, rfl, rfl, rfl, .refl _⟩
  | pump =>
    rw [apply, Outcome.state_map]
    rcases e.pump_cases with ⟨-, -, same⟩ | ⟨-, -, -, projected⟩
    · rw [same]
      exact .refl e
    · rw [projected]
      exact ⟨rfl, rfl, rfl, rfl, rfl, rfl, rfl⟩
  | _ => cases presents

/-- Editors that are alike answer other steps in the same way and stay alike. -/
theorem Alike.apply_of_edits (h : e.Alike f) {step : Step ι} (edits : step.edits = true) :
    (f.apply step).answer = (e.apply step).answer ∧
      (e.apply step).state.Alike (f.apply step).state := by
  have other : f.apply step = (e.apply step).lift (·.outside f.projector f.interpreter) := by
    conv_lhs => rw [h.eq_outside]
    exact apply_outside e f.projector f.interpreter edits
  have kept : (e.apply step).state.projector = e.projector :=
    congrArg (·.state.projector) (apply_outside e e.projector e.interpreter edits)
  rw [other, Outcome.answer_lift, Outcome.state_lift]
  exact ⟨rfl, rfl, rfl, rfl, rfl, kept ▸ h.projector⟩

/-- Editors that are alike answer all but a look at the ticker in the same way, and stay alike. -/
theorem Alike.apply (h : e.Alike f) (coherent : e.Coherent) (coherent' : f.Coherent)
    (step : Step ι) :
    (step ≠ .pump → (f.apply step).answer = (e.apply step).answer) ∧
      (e.apply step).state.Alike (f.apply step).state := by
  by_cases edits : step.edits = true
  · exact (h.apply_of_edits edits).imp_left fun same _ => same
  have around (presents : step.presents = true) : (e.apply step).state.Alike (f.apply step).state :=
    ((alike_apply_of_presents coherent.displayed presents).symm.trans h).trans
      (alike_apply_of_presents coherent'.displayed presents)
  cases step with
  | scriptMode on => exact ⟨fun _ => rfl, h.setScriptMode on⟩
  | fire | interpreter => exact ⟨fun _ => rfl, around rfl⟩
  | pump => exact ⟨fun looks => absurd rfl looks, around rfl⟩
  | _ => exact absurd rfl edits

end Steps

/-! ## Erasing steps -/

/-- The second sequence is left of the first when some steps of a sort are erased. -/
inductive Erased (sort : Step ι → Bool) : List (Step ι) → List (Step ι) → Prop where
  | nil : Erased sort [] []
  | keep (step : Step ι) {steps fewer : List (Step ι)} (erased : Erased sort steps fewer) :
      Erased sort (step :: steps) (step :: fewer)
  | erase (step : Step ι) (of_sort : sort step = true) {steps fewer : List (Step ι)}
      (erased : Erased sort steps fewer) : Erased sort (step :: steps) fewer

theorem Erased.mono {sort sort' : Step ι → Bool} {steps fewer : List (Step ι)}
    (erased : Erased sort steps fewer) (weaker : ∀ step, sort step = true → sort' step = true) :
    Erased sort' steps fewer := by
  induction erased with
  | nil => exact .nil
  | keep step _ ih => exact .keep step ih
  | erase step of_sort _ ih => exact .erase step (weaker step of_sort) ih

/-- Whether a step is about the presentation only. -/
def Step.polls : Step ι → Bool
  | .refresh | .fire _ | .pump => true
  | _ => false

section Runs

variable [StatusSource ι] {steps fewer : List (Step ι)}

theorem Erased.run (erased : Erased Step.presents steps fewer) (h : e.Alike f)
    (wf : e.program.WellFormed) (coherent : e.Coherent) (coherent' : f.Coherent) :
    (e.run steps).Alike (f.run fewer) := by
  induction erased generalizing e f with
  | nil => exact h
  | keep step erased ih =>
    obtain ⟨wf', next⟩ := coherent.apply wf step
    obtain ⟨-, next'⟩ := coherent'.apply (h.program ▸ wf) step
    exact ih (h.apply coherent coherent' step).2 wf' next next'
  | erase step presents erased ih =>
    obtain ⟨wf', next⟩ := coherent.apply wf step
    have still := alike_apply_of_presents coherent.displayed presents
    exact ih (still.symm.trans h) wf' next coherent'

/-! ### The interpreter -/

/-- What is seen of the interpreter is not changed by asking it, nor by any step but its own. -/
theorem view_apply {σ : Type} {view : ι → σ} (e : Editor ι)
    (asking : ∀ i, view (StatusSource.report i).2 = view i) {step : Step ι}
    (other : ∀ change, step ≠ .interpreter change) :
    view (e.apply step).state.interpreter = view e.interpreter := by
  by_cases edits : step.edits = true
  · have kept := apply_outside e e.projector e.interpreter edits
    exact congrArg (view ·.state.interpreter) kept
  cases step with
  | scriptMode | fire => rfl
  | interpreter change => exact absurd rfl (other change)
  | pump =>
    rw [apply, Outcome.state_map]
    rcases e.pump_cases with ⟨-, -, same⟩ | ⟨-, -, -, projected⟩
    · rw [same]
    · rw [projected]
      exact asking e.interpreter
  | _ => exact absurd rfl edits

theorem Erased.view_run {σ : Type} {view : ι → σ} (erased : Erased Step.polls steps fewer)
    (asking : ∀ i, view (StatusSource.report i).2 = view i)
    (blind : ∀ change, .interpreter change ∈ steps →
      ∀ i j, view i = view j → view (change i) = view (change j))
    (same : view f.interpreter = view e.interpreter) :
    view (f.run fewer).interpreter = view (e.run steps).interpreter := by
  induction erased generalizing e f with
  | nil => exact same
  | keep step erased ih =>
    refine ih (fun change mem => blind change (List.mem_cons_of_mem _ mem)) ?_
    by_cases own : ∃ change, step = .interpreter change
    · obtain ⟨change, rfl⟩ := own
      exact blind change List.mem_cons_self _ _ same
    · have other : ∀ change, step ≠ .interpreter change := fun change eq => own ⟨change, eq⟩
      rw [view_apply f asking other, view_apply e asking other, same]
  | erase step polls erased ih =>
    refine ih (fun change mem => blind change (List.mem_cons_of_mem _ mem)) ?_
    have other : ∀ change, step ≠ .interpreter change := by
      rintro change rfl
      cases polls
    rw [view_apply e asking other, same]

/--
After a run and what is left of it without some steps of the presentation, the editor is the same
but for what such steps change, and it takes any further step in the same way, with the same answer
unless it is a look at the ticker. What is seen of the interpreter is the same as well, as long as
none of its own changes is erased and asking it does not show.
-/
theorem Erased.alike_run_new (settings : EngineSettings) (interpreter : ι)
    (erased : Erased Step.presents steps fewer) :
    ((new settings interpreter).run steps).Alike ((new settings interpreter).run fewer) ∧
      (∀ step,
        (step ≠ .pump → (((new settings interpreter).run fewer).apply step).answer =
          (((new settings interpreter).run steps).apply step).answer) ∧
        (((new settings interpreter).run steps).apply step).state.Alike
          (((new settings interpreter).run fewer).apply step).state ∧
        (((new settings interpreter).run fewer).apply step).state.save =
          (((new settings interpreter).run steps).apply step).state.save) ∧
      ∀ {σ : Type} (view : ι → σ), Erased Step.polls steps fewer →
        (∀ i, view (StatusSource.report i).2 = view i) →
        (∀ change, .interpreter change ∈ steps →
          ∀ i j, view i = view j → view (change i) = view (change j)) →
        view ((new settings interpreter).run fewer).interpreter =
          view ((new settings interpreter).run steps).interpreter := by
  have wf : (new settings interpreter).program.WellFormed := Program.wellFormed_empty
  have start := coherent_new settings interpreter
  have alike := erased.run (.refl _) wf start start
  refine ⟨alike, fun step => ?_, fun view erased asking blind => erased.view_run asking blind rfl⟩
  obtain ⟨answer, next⟩ := alike.apply (start.run wf steps).2 (start.run wf fewer).2 step
  exact ⟨answer, next, congrArg Program.save next.program⟩

end Runs

/-- Lights an event while a script runs. -/
def lookedAt : List (Step Reporter) :=
  [.addEvent .tip none, .fire 1, .scriptMode true,
    .interpreter fun r => { r with status := .ofEntries [(0, [])] }, .fire 2, .pump,
    .clearSelection, .refresh]

/-- The same without a look at what the interpreter reports. -/
def unobserved : List (Step Reporter) :=
  [.addEvent .tip none, .scriptMode true,
    .interpreter fun r => { r with status := .ofEntries [(0, [])] }, .clearSelection]

theorem alike_unobserved :
    Erased Step.presents lookedAt unobserved ∧
      ((new {} (Reporter.mk .empty 0)).run lookedAt).projector.highlights = ⟨[⟨1⟩], []⟩ ∧
      ((new {} (Reporter.mk .empty 0)).run unobserved).projector.highlights = .none ∧
      ((new {} (Reporter.mk .empty 0)).run lookedAt).Alike
        ((new {} (Reporter.mk .empty 0)).run unobserved) ∧
      ((new {} (Reporter.mk .empty 0)).run unobserved).interpreter.status =
        ((new {} (Reporter.mk .empty 0)).run lookedAt).interpreter.status := by
  have polls : Erased Step.polls lookedAt unobserved :=
    .keep _ <| .erase _ rfl <| .keep _ <| .keep _ <| .erase _ rfl <| .erase _ rfl <| .keep _ <|
      .erase _ rfl .nil
  have erased : Erased Step.presents lookedAt unobserved :=
    polls.mono fun step of_sort => by cases step <;> simp_all [Step.polls, Step.presents]
  obtain ⟨alike, -, viewed⟩ := erased.alike_run_new {} (Reporter.mk .empty 0)
  refine ⟨erased, by decide, by decide, alike, viewed Reporter.status polls (fun _ => rfl) ?_⟩
  simp only [lookedAt, List.mem_cons, List.not_mem_nil, reduceCtorEq, false_or, or_false]
  rintro change ⟨⟩ i j -
  rfl

end Editor

end RobotProgram
