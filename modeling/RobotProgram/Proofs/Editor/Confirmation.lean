import RobotProgram.Proofs.Editor.Dialogs

/-!
# Deletions that have to be confirmed

An event is deleted if something is selected, the event is there, the program is unlocked, and the
event has no commands or the user agrees. The user is asked once, and only when nothing but the
answer is in the way. A deletion that is not carried out says what was in the way first and changes
nothing; one that is carried out takes that event away and nothing else.

## Main definitions

* `Program.Asks`, `Program.Deletes`: whether the user is asked, and whether the event is deleted.
* `Program.Without`: a program without an event.
* `Program.Deleting`: what comes of a deletion, hindrance by hindrance.
* `Program.Gated`: all of it.
-/

namespace RobotProgram

/-! ## Programs -/

namespace Program

variable {p q : Program} {h : Handle Event} {answer : Bool} {question : String}

/-- The questions that were asked; a deletion that fails asks none. -/
def asked (o : DeletionOutcome) : List String :=
  match o.answer with
  | .ok (_, questions) => questions
  | .error _ => []

/-- Nothing but the user's answer may be in the way of deleting an event, and it has commands. -/
def Asks (p : Program) (h : Handle Event) : Prop :=
  p.selected ≠ none ∧ p.locked = false ∧
    ∃ event, p.events.find? h = some event ∧ event.routine.length ≠ 0

/-- Nothing is in the way of deleting an event, given the user's answer. -/
def Deletes (p : Program) (h : Handle Event) (answer : Bool) : Prop :=
  p.selected ≠ none ∧ p.locked = false ∧
    ∃ event, p.events.find? h = some event ∧ (event.routine.length = 0 ∨ answer = true)

/-- The second program is the first one without an event. -/
structure Without (h : Handle Event) (p q : Program) : Prop where
  entries : q.entries = p.entries.filter (·.1 ≠ h)
  next : q.events.next = p.events.next
  locked : q.locked = p.locked
  unselected : p.selected = some h → q.selected = none
  selected : p.selected ≠ some h → q.selected = p.selected

/-- What comes of a deletion: the first hindrance, or a program without the event. -/
inductive Deleting (p : Program) (h : Handle Event) (answer : Bool) (question : String) :
    DeletionOutcome → Prop where
  | noSelection (notices : List Notice) (unselected : p.selected = none) :
      Deleting p h answer question ⟨.ok (.noSelection, []), p, notices⟩
  | unknown (notices : List Notice) (selected : p.selected ≠ none)
      (unknown : p.events.find? h = none) :
      Deleting p h answer question ⟨.error (.unregistered "event" h.id), p, notices⟩
  | locked (notices : List Notice) (selected : p.selected ≠ none) (event : Event)
      (found : p.events.find? h = some event) (locked : p.locked = true) :
      Deleting p h answer question ⟨.ok (.locked, []), p, notices⟩
  | declined (notices : List Notice) (selected : p.selected ≠ none) (event : Event)
      (found : p.events.find? h = some event) (unlocked : p.locked = false)
      (commands : event.routine.length ≠ 0) (declined : answer = false) :
      Deleting p h answer question ⟨.ok (.declined, [question]), p, notices⟩
  | confirmed (notices : List Notice) (selected : p.selected ≠ none) (event : Event)
      (found : p.events.find? h = some event) (unlocked : p.locked = false)
      (commands : event.routine.length ≠ 0) (confirmed : answer = true) (q : Program)
      (without : p.Without h q) :
      Deleting p h answer question ⟨.ok (.deleted h, [question]), q, notices⟩
  | unasked (notices : List Notice) (selected : p.selected ≠ none) (event : Event)
      (found : p.events.find? h = some event) (unlocked : p.locked = false)
      (idle : event.routine.length = 0) (q : Program) (without : p.Without h q) :
      Deleting p h answer question ⟨.ok (.deleted h, []), q, notices⟩

/-- A deletion asks and deletes just when it should, and what it says is so. -/
structure Gated (p : Program) (h : Handle Event) (answer : Bool) (question : String)
    (o : DeletionOutcome) : Prop where
  /-- What is in the way is looked for in this order. -/
  deleting : p.Deleting h answer question o
  asked : p.Asks h ∧ asked o = [question] ∨ ¬ p.Asks h ∧ asked o = []
  deleted : (∃ questions, o.answer = .ok (.deleted h, questions)) ↔ p.Deletes h answer
  without : p.Deletes h answer → p.Without h o.state
  kept : ¬ p.Deletes h answer → o.state = p

theorem without_removeEvent (p : Program) (h : Handle Event) : p.Without h (p.removeEvent h) where
  entries := Roster.entries_remove p.events h
  next := rfl
  locked := rfl
  unselected selected := if_pos selected
  selected other := if_neg other

theorem Labelled.deleting_delete (labelled : p.Labelled) (h : Handle Event) (answer : Bool)
    (question : String) : p.Deleting h answer question (p.delete h answer question) := by
  unfold delete
  split
  · rename_i unselected
    exact .noSelection _ (Option.isNone_iff_eq_none.mp unselected)
  rename_i selected
  replace selected : p.selected ≠ none := by simpa using selected
  split
  · rename_i unknown
    rw [labelled.fault_event]
    exact .unknown _ selected unknown
  rename_i event found
  split
  · rename_i locked
    exact .locked _ selected event found locked
  rename_i unlocked
  replace unlocked : p.locked = false := by simpa using unlocked
  dsimp only
  by_cases commands : event.routine.length = 0
  · rw [if_neg (by simp [commands]), if_neg (by simp [commands])]
    exact .unasked _ selected event found unlocked commands _ (without_removeEvent p h)
  · rw [if_pos commands]
    split
    · rename_i declined
      exact .declined _ selected event found unlocked commands (by simpa using declined.2)
    · rename_i confirmed
      exact .confirmed _ selected event found unlocked commands (by simpa [commands] using confirmed)
        _ (without_removeEvent p h)

theorem asks_iff {event : Event} (selected : p.selected ≠ none) (unlocked : p.locked = false)
    (found : p.events.find? h = some event) : p.Asks h ↔ event.routine.length ≠ 0 := by
  simp [Asks, selected, unlocked, found]

theorem deletes_iff {event : Event} (selected : p.selected ≠ none) (unlocked : p.locked = false)
    (found : p.events.find? h = some event) :
    p.Deletes h answer ↔ event.routine.length = 0 ∨ answer = true := by
  simp [Deletes, selected, unlocked, found]

/-- The event that is said to be deleted is the one that was to be. -/
theorem Deleting.of_deleted {o : DeletionOutcome} (deleting : p.Deleting h answer question o)
    {k : Handle Event} {questions : List String} (deleted : o.answer = .ok (.deleted k, questions)) :
    k = h ∧ p.Without h o.state := by
  cases deleting with
  | confirmed notices _ event _ _ _ _ q without =>
    cases deleted
    exact ⟨rfl, without⟩
  | unasked notices _ event _ _ _ q without =>
    cases deleted
    exact ⟨rfl, without⟩
  | _ => cases deleted

/-- What comes of a deletion tells whether the user was asked and the event was deleted. -/
theorem Deleting.gated {o : DeletionOutcome} (deleting : p.Deleting h answer question o) :
    p.Gated h answer question o := by
  refine ⟨deleting, ?_, ?_, ?_, ?_⟩ <;> cases deleting with
  | noSelection notices unselected => simp [Asks, Deletes, asked, unselected]
  | unknown notices selected unknown => simp [Asks, Deletes, asked, unknown]
  | locked notices selected event found locked => simp [Asks, Deletes, asked, locked]
  | declined notices selected event found unlocked commands declined =>
    simp [asks_iff selected unlocked found, deletes_iff selected unlocked found, asked, commands,
      declined]
  | confirmed notices selected event found unlocked commands confirmed q without =>
    simp [asks_iff selected unlocked found, deletes_iff selected unlocked found, asked, commands,
      confirmed, without]
  | unasked notices selected event found unlocked idle q without =>
    simp [asks_iff selected unlocked found, deletes_iff selected unlocked found, asked, idle,
      without]

end Program

/-! ## Editors -/

namespace Editor

variable {ι : Type} {e : Editor ι} {answer : Bool}

/-- An operation that does not fail is followed by displaying what is selected then. -/
theorem displayed_refreshedUnlessFault {ρ : Type} {o : Outcome Program (Except Fault ρ)} {x : ρ}
    (done : (e.refreshedUnlessFault o).answer = .ok x) :
    (e.refreshedUnlessFault o).state.displayed = o.state.selected := by
  rw [answer_refreshedUnlessFault] at done
  rw [refreshedUnlessFault, done]
  rfl

theorem program_refreshedUnlessFault {ρ : Type} (e : Editor ι)
    (o : Outcome Program (Except Fault ρ)) : (e.refreshedUnlessFault o).state.program = o.state := by
  unfold refreshedUnlessFault
  split <;> rfl

/-- What was deleted was selected, so nothing is selected afterwards. -/
theorem selected_of_deleted (labelled : e.program.Labelled) {h : Handle Event}
    {question : String} {questions : List String}
    (deleted : (e.program.deleteSelected answer question).answer = .ok (.deleted h, questions)) :
    e.program.selected = some h ∧
      e.program.Without h (e.program.deleteSelected answer question).state := by
  unfold Program.deleteSelected at deleted ⊢
  split at deleted
  · rename_i selectedHandle selected
    obtain ⟨rfl, without⟩ :=
      (labelled.deleting_delete selectedHandle answer question).of_deleted deleted
    exact ⟨selected, without⟩
  · cases deleted

/--
Any deletion from any program, on its own or in an editor, asks once or not at all, and carries out
or refuses, as it should; an editor's button never fails, and after a deletion nothing is displayed.
-/
theorem gated_run_new [StatusSource ι] :
    (∀ edits h answer question, (Program.empty.run edits).Gated h answer question
      ((Program.empty.run edits).delete h answer question)) ∧
    ∀ (settings : EngineSettings) (interpreter : ι) (steps : List (Step ι)) (answer : Bool),
      let e := (new settings interpreter).run steps
      (∀ h question, e.program.Gated h answer question (e.program.delete h answer question)) ∧
        (∃ deletion questions,
          (e.deleteSelectedEvent answer).answer = .ok (deletion, questions)) ∧
        ∀ h questions, (e.deleteSelectedEvent answer).answer = .ok (.deleted h, questions) →
          e.displayed = some h ∧ (e.deleteSelectedEvent answer).state.displayed = none ∧
            e.program.Without h (e.deleteSelectedEvent answer).state.program := by
  refine ⟨fun edits h answer question => ?_, fun settings interpreter steps answer => ?_⟩
  · have labelled := Program.labelled_empty.run Program.wellFormed_empty edits
    exact (labelled.deleting_delete h answer question).gated
  · intro e
    have start := coherent_new settings interpreter
    have labelled : e.program.Labelled :=
      labelled_run start Program.wellFormed_empty Program.labelled_empty steps
    have coherent : e.Coherent := (start.run Program.wellFormed_empty steps).2
    refine ⟨fun h question => ?_, ?_, fun h questions deleted => ?_⟩
    · exact (labelled.deleting_delete h answer question).gated
    · cases answered : (e.deleteSelectedEvent answer).answer with
      | ok reply => exact ⟨reply.1, reply.2, rfl⟩
      | error fault =>
        rw [deleteSelectedEvent, answer_refreshedUnlessFault] at answered
        exact absurd answered (deleteSelected_ne_error coherent answer _)
    · have shown := displayed_refreshedUnlessFault deleted
      rw [deleteSelectedEvent, answer_refreshedUnlessFault] at deleted
      obtain ⟨selected, without⟩ := selected_of_deleted labelled deleted
      refine ⟨coherent.displayed.trans selected, ?_, ?_⟩
      · exact shown.trans (without.unselected selected)
      · rw [deleteSelectedEvent, program_refreshedUnlessFault]
        exact without

end Editor

end RobotProgram
