import RobotProgram.Proofs.Editor.Dialogs

/-!
# Steps on commands stay in the displayed event

Handles of commands repeat from event to event, so that one means something only together with the
displayed event. A step on commands is an operation on the routine of that event, which depends on
nothing but that routine and the lock of the program. So it leaves everything else alone, and such
steps in two events do the same in either order.

## Main definitions

* `Editor.Step.within`: what a step on commands does to the displayed routine.
* `Editor.Confined`: an editor in which at most the commands of the displayed event differ.
* `Editor.chosen`: a step after an event has been selected for it.
* `Editor.Swapped`: two outcomes in a row that come out the same the other way round.
-/

namespace RobotProgram

/-- Changes to the objects of two handles can be made in either order. -/
theorem Roster.modify_comm {α : Type} {h k : Handle α} (ne : h ≠ k) (r : Roster α) (f g : α → α) :
    (r.modify h f).modify k g = (r.modify k g).modify h f := by
  simp only [modify, alter, List.map_map]
  congr 1
  refine List.map_congr_left fun entry _ => ?_
  by_cases first : entry.1 = h
  · simp [first, ne]
  · by_cases second : entry.1 = k <;> simp [first, second, ne.symm]

namespace Editor

variable {ι : Type}

/-! ## Seen from the routine -/

/-- Whether a step works on the commands of the displayed event. -/
def Step.onCommands : Step ι → Bool
  | .addCommand .. | .dropCommand .. | .editCommand .. | .deleteCommands _ | .moveCommand .. => true
  | _ => false

/-- Putting a new command into a routine, with parameters from the dialog. -/
def dropWithin (locked : Bool) (routine : Routine) (kind : CommandKind) (index : Nat)
    (dialog : Dialog) : Outcome Routine (Except Fault Reply) :=
  if locked then ⟨.ok (.command none []), routine, [.addWhileRunning kind.gui]⟩
  else
    match dialog kind none with
    | .rejected => ⟨.ok (.command none [(kind, none)]), routine, [.promptRejected kind.gui]⟩
    | .accepted parameters =>
      (routine.insert kind parameters index).map fun c => .ok (.command c [(kind, none)])

/-- Opening the dialog of a command of a routine again. -/
def editWithin (locked : Bool) (routine : Routine) (c : Handle Command) (dialog : Dialog) :
    Outcome Routine (Except Fault Reply) :=
  match routine.commands.find? c with
  | none => ⟨.error (routine.commands.fault c), routine, [routine.commands.notice c]⟩
  | some command =>
    if locked then ⟨.ok (.edited false []), routine, [.editWhileRunning c.id]⟩
    else
      let opening := [(command.kind, command.parameters)]
      match dialog command.kind command.parameters with
      | .rejected => ⟨.ok (.edited false opening), routine, []⟩
      | .accepted parameters => (routine.update c parameters).map (.map (.edited · opening))

/-- What a step on commands does to the displayed routine, in a program that is locked or not. -/
def Step.within (locked : Bool) (routine : Routine) :
    Step ι → Outcome Routine (Except Fault Reply)
  | .addCommand kind dialog => dropWithin locked routine kind routine.length dialog
  | .dropCommand kind index dialog => dropWithin locked routine kind index dialog
  | .editCommand c dialog => editWithin locked routine c dialog
  | .deleteCommands handles => (routine.delete handles).map (.map .deleted)
  | .moveCommand c index => (routine.move c index).map (.map .moved)
  | _ => ⟨.ok .done, routine, []⟩

variable {e : Editor ι} {h : Handle Event} {event : Event}

theorem withRoutine_eq_self (wf : e.program.events.WellFormed)
    (found : e.program.events.find? h = some event) : e.withRoutine h event.routine = e := by
  rw [withRoutine, Program.setRoutine, Roster.modify_eq_self wf found rfl]

theorem displayedEntry?_of_found (displayed : e.displayed = some h)
    (found : e.program.events.find? h = some event) :
    e.displayedEntry? = some (h, event.routine) := by
  simp [displayed, found, displayedEntry?]

section Displayed

variable (wf : e.program.events.WellFormed) (displayed : e.displayed = some h)
  (found : e.program.events.find? h = some event)
include wf displayed found

theorem dropCommand_eq_within (kind : CommandKind) (index : Nat) (dialog : Dialog) :
    ((e.dropCommand kind index dialog).map fun r => Except.ok (Reply.command r.1 r.2)) =
      (dropWithin e.program.locked event.routine kind index dialog).lift (e.withRoutine h) := by
  have entry := displayedEntry?_of_found displayed found
  have still := withRoutine_eq_self wf found
  unfold dropCommand dropWithin
  rw [if_neg (by simp [displayed])]
  split
  · simp [Outcome.map, Outcome.lift, still]
  cases dialog kind none with
  | rejected => simp [Outcome.map, Outcome.lift, still]
  | accepted parameters =>
    dsimp only
    rw [entry]
    rfl

theorem editCommand_eq_within (c : Handle Command) (dialog : Dialog) :
    ((e.editCommand c dialog).map fun r => r.1.map (Reply.edited · r.2)) =
      (editWithin e.program.locked event.routine c dialog).lift (e.withRoutine h) := by
  have entry := displayedEntry?_of_found displayed found
  have still := withRoutine_eq_self wf found
  unfold editCommand editWithin
  rw [entry]
  dsimp only
  cases event.routine.commands.find? c with
  | none => simp [Outcome.map, Outcome.lift, still, Except.map]
  | some command =>
    dsimp only
    split
    · simp [Outcome.map, Outcome.lift, still, Except.map]
    cases dialog command.kind command.parameters with
    | rejected => simp [Outcome.map, Outcome.lift, still, Except.map]
    | accepted parameters => rfl

/-- A step on commands is what it is for the displayed routine, put back in its place. -/
theorem apply_eq_within [StatusSource ι] {step : Step ι} (commands : step.onCommands = true) :
    e.apply step = (step.within e.program.locked event.routine).lift (e.withRoutine h) := by
  have entry := displayedEntry?_of_found displayed found
  cases step with
  | addCommand kind dialog =>
    have length : (e.displayedRoutine?.map Routine.length).getD 0 = event.routine.length := by
      simp [displayedRoutine?, displayed, found]
    rw [apply, addCommand, length]
    exact dropCommand_eq_within wf displayed found kind _ dialog
  | dropCommand kind index dialog =>
    exact dropCommand_eq_within wf displayed found kind index dialog
  | editCommand c dialog => exact editCommand_eq_within wf displayed found c dialog
  | deleteCommands handles =>
    rw [apply, deleteCommands, entry]
    rfl
  | moveCommand c index =>
    rw [apply, moveCommand, entry]
    rfl
  | _ => cases commands

end Displayed

/-- Without a displayed event, a step on commands does nothing. -/
theorem state_of_hidden [StatusSource ι] (hidden : e.displayed = none) {step : Step ι}
    (commands : step.onCommands = true) : (e.apply step).state = e := by
  have entry : e.displayedEntry? = none := by simp [hidden, displayedEntry?]
  cases step with
  | addCommand kind dialog => simp [apply, addCommand, dropCommand, hidden]
  | dropCommand kind index dialog => simp [apply, dropCommand, hidden]
  | editCommand c dialog => simp [apply, editCommand, entry]
  | deleteCommands handles => simp [apply, deleteCommands, entry]
  | moveCommand c index => simp [apply, moveCommand, entry]
  | _ => cases commands

/-! ## The frame -/

/-- In the second editor at most the commands of the event that the first one displays differ. -/
structure Confined (e e' : Editor ι) : Prop where
  /-- Every other event stands where it stood and is what it was, commands and all. -/
  elsewhere : ∀ (i : Nat) (k : Handle Event) (event : Event), e.displayed ≠ some k →
    e.program.entries[i]? = some (k, event) → e'.program.entries[i]? = some (k, event)
  /-- Of the displayed event all but the commands is what it was; their lock is as well. -/
  here : ∀ (i : Nat) (h : Handle Event) (event : Event), e.displayed = some h →
    e.program.entries[i]? = some (h, event) →
      ∃ routine, e'.program.entries[i]? = some (h, { event with routine }) ∧
        routine.locked = event.routine.locked
  order : e'.program.events.order = e.program.events.order
  next : e'.program.events.next = e.program.events.next
  selected : e'.program.selected = e.program.selected
  displayed : e'.displayed = e.displayed
  locked : e'.program.locked = e.program.locked
  scriptMode : e'.scriptMode = e.scriptMode
  /-- The projector has the ticker and the highlights. -/
  projector : e'.projector = e.projector
  interpreter : e'.interpreter = e.interpreter
  settings : e'.settings = e.settings

theorem Confined.refl (e : Editor ι) : e.Confined e where
  elsewhere _ _ _ _ at_i := at_i
  here _ _ event _ at_i := ⟨event.routine, at_i, rfl⟩
  order := rfl
  next := rfl
  selected := rfl
  displayed := rfl
  locked := rfl
  scriptMode := rfl
  projector := rfl
  interpreter := rfl
  settings := rfl

theorem getElem?_entries_withRoutine (e : Editor ι) (h : Handle Event) (routine : Routine)
    (i : Nat) : (e.withRoutine h routine).program.entries[i]? =
      e.program.entries[i]?.map fun entry =>
        if entry.1 = h then (entry.1, { entry.2 with routine }) else entry := by
  rw [Program.entries, withRoutine, Program.setRoutine, Roster.entries_modify, List.getElem?_map]
  rfl

theorem confined_withRoutine (displayed : e.displayed = some h) {routine : Routine}
    (locks : ∀ event, (h, event) ∈ e.program.entries → routine.locked = event.routine.locked) :
    e.Confined (e.withRoutine h routine) where
  elsewhere i k event other at_i := by
    have ne : k ≠ h := fun same => other (same ▸ displayed)
    simp [getElem?_entries_withRoutine, at_i, ne]
  here i k event same at_i := by
    obtain rfl : h = k := Option.some.inj (displayed.symm.trans same)
    exact ⟨routine, by simp [getElem?_entries_withRoutine, at_i],
      locks event (List.mem_of_getElem? at_i)⟩
  order := rfl
  next := rfl
  selected := rfl
  displayed := rfl
  locked := rfl
  scriptMode := rfl
  projector := rfl
  interpreter := rfl
  settings := rfl

section Steps

variable [StatusSource ι] (coherent : e.Coherent) (wf : e.program.WellFormed)
include coherent wf

theorem confined_apply {step : Step ι} (commands : step.onCommands = true) :
    e.Confined (e.apply step).state := by
  cases displayed : e.displayed with
  | none =>
    rw [state_of_hidden displayed commands]
    exact .refl e
  | some h =>
    obtain ⟨event, found, -⟩ := coherent.displayedEntry?_eq wf displayed
    have after := (coherent.apply wf step).2
    rw [apply_eq_within wf.events displayed found commands] at after ⊢
    -- the mode is what it was, and every lock agrees with it before and after
    refine confined_withRoutine displayed fun other mem => ?_
    have here : (h, { other with routine := (step.within e.program.locked event.routine).state }) ∈
        (e.withRoutine h (step.within e.program.locked event.routine).state).program.entries := by
      rw [Program.entries, withRoutine, Program.setRoutine, Roster.entries_modify]
      exact List.mem_map.mpr ⟨_, mem, if_pos rfl⟩
    exact (after.routines _ here).trans (coherent.routines _ mem).symm

end Steps

/-! ## Two events -/

/-- The editor in which an event is selected and displayed. -/
def choosing (e : Editor ι) (h : Handle Event) : Editor ι :=
  { e with program := { e.program with selected := some h }, displayed := some h }

/-- The outcome of a step after an event has been selected for it. -/
def chosen [StatusSource ι] (e : Editor ι) (h : Handle Event) (step : Step ι) :
    Outcome (Editor ι) (Except Fault Reply) :=
  (e.apply (.selectEvent h)).state.apply step

theorem state_selectEvent [StatusSource ι] (known : e.program.events.contains h = true) :
    (e.apply (.selectEvent h)).state = e.choosing h := by
  simp [apply, selectEvent, Program.select, known, refreshedUnlessFault, refreshed, refresh,
    choosing]

/-- A step on commands after its event has been selected. -/
theorem chosen_eq [StatusSource ι] (wf : e.program.events.WellFormed)
    (found : e.program.events.find? h = some event) {step : Step ι}
    (commands : step.onCommands = true) :
    e.chosen h step =
      (step.within e.program.locked event.routine).lift ((e.choosing h).withRoutine h) := by
  have known : e.program.events.contains h = true := by simp [Roster.contains, found]
  rw [chosen, state_selectEvent known]
  exact apply_eq_within (e := e.choosing h) wf rfl found commands

/--
A step in one event and then a step in another come to what they come to the other way round: both
answer and note the same, and in the end only the selection differs.
-/
structure Swapped [StatusSource ι] (e : Editor ι) (h k : Handle Event) (s t : Step ι) : Prop where
  first : ((e.chosen k t).state.chosen h s).answer = (e.chosen h s).answer
  firstNotices : ((e.chosen k t).state.chosen h s).notices = (e.chosen h s).notices
  second : ((e.chosen h s).state.chosen k t).answer = (e.chosen k t).answer
  secondNotices : ((e.chosen h s).state.chosen k t).notices = (e.chosen k t).notices
  selected : ((e.chosen h s).state.chosen k t).state.program.selected = some k
  displayed : ((e.chosen h s).state.chosen k t).state.displayed = some k
  state : ((e.chosen k t).state.chosen h s).state =
    ((e.chosen h s).state.chosen k t).state.choosing h

theorem swapped_of_ne [StatusSource ι] (wf : e.program.events.WellFormed) {k : Handle Event}
    (ne : h ≠ k) (first : e.program.events.contains h = true)
    (second : e.program.events.contains k = true) {s t : Step ι}
    (hs : s.onCommands = true) (ht : t.onCommands = true) : e.Swapped h k s t := by
  obtain ⟨event, found⟩ := Option.isSome_iff_exists.mp first
  obtain ⟨other, found'⟩ := Option.isSome_iff_exists.mp second
  -- the routine of the one event is the same before and after the step in the other
  have wfAfter (j : Handle Event) (r : Routine) :
      ((e.choosing j).withRoutine j r).program.events.WellFormed := wf.modify j _
  have foundAfter {i j : Handle Event} {x : Event} (ij : i ≠ j)
      (hx : e.program.events.find? i = some x) (r : Routine) :
      ((e.choosing j).withRoutine j r).program.events.find? i = some x := by
    simp [withRoutine, Program.setRoutine, choosing, Roster.find?_modify, hx, ij]
  have hfirst := chosen_eq wf found hs
  have hsecond := chosen_eq wf found' ht
  generalize outcome : s.within e.program.locked event.routine = o at hfirst
  generalize outcome' : t.within e.program.locked other.routine = o' at hsecond
  have last := chosen_eq (wfAfter h o.state) (foundAfter ne.symm found' o.state) ht
  have last' := chosen_eq (wfAfter k o'.state) (foundAfter ne found o'.state) hs
  replace last : (e.chosen h s).state.chosen k t =
      o'.lift ((((e.choosing h).withRoutine h o.state).choosing k).withRoutine k) := by
    rw [hfirst, ← outcome']
    exact last
  replace last' : (e.chosen k t).state.chosen h s =
      o.lift ((((e.choosing k).withRoutine k o'.state).choosing h).withRoutine h) := by
    rw [hsecond, ← outcome]
    exact last'
  have state : ((e.chosen k t).state.chosen h s).state =
      ((e.chosen h s).state.chosen k t).state.choosing h := by
    rw [last, last']
    simp only [Outcome.state_lift, withRoutine, Program.setRoutine, choosing]
    rw [Roster.modify_comm ne]
  constructor
  case first | firstNotices => rw [last', hfirst]; rfl
  case second | secondNotices => rw [last, hsecond]; rfl
  case selected | displayed => rw [last]; rfl
  case state => exact state

/-! ## Both -/

/-- Steps on commands stay in the displayed event, and between events their order is free. -/
structure Routed [StatusSource ι] (e : Editor ι) : Prop where
  confined : ∀ step : Step ι, step.onCommands = true → e.Confined (e.apply step).state
  swapped : ∀ (h k : Handle Event) (s t : Step ι), h ≠ k → e.program.events.contains h = true →
    e.program.events.contains k = true → s.onCommands = true → t.onCommands = true →
      e.Swapped h k s t

/--
Whatever has been done with a new editor, a step on commands changes nothing but the commands of the
displayed event, whatever handles it is given, and steps in two events can be done in either order.
-/
theorem routed_run_new [StatusSource ι] (settings : EngineSettings) (interpreter : ι)
    (steps : List (Step ι)) : ((new settings interpreter).run steps).Routed := by
  obtain ⟨wf, coherent⟩ := (coherent_new settings interpreter).run Program.wellFormed_empty steps
  exact ⟨fun step commands => confined_apply coherent wf commands,
    fun h k s t ne first second hs ht => swapped_of_ne wf.events ne first second hs ht⟩

end Editor

end RobotProgram
