import RobotProgram.Proofs.Program.UnknownKinds

/-!
# Labels and faults

The roster of a program's events and the rosters of its commands are labelled so for good, so that
the fault of a handle says of what it is the handle. Reading records has other faults.

## Main definitions

* `Program.Labelled`: the labels, kept by every operation.
-/

namespace RobotProgram

/-! ## Routines -/

namespace Routine

theorem label_register (r : Roster Command) (commands : List Command) :
    (commands.foldl .register r).label = r.label := by
  induction commands generalizing r with
  | nil => rfl
  | cons c rest ih => exact ih (r.register c)

/-- No operation changes the label of a routine's commands. -/
theorem Effect.label_eq {r r' : Routine} {edit : Edit} {reply : Reply}
    (effect : Effect r edit reply r') : r'.commands.label = r.commands.label := by
  cases effect with
  | delete handles =>
    change (handles.eraseDups.foldl .remove r.commands).label = r.commands.label
    rw [Roster.foldl_remove]
  | load records commands => exact label_register r.commands.clear commands
  | _ => rfl

theorem label_ofRecords {records : List CommandRecord} {r : Routine}
    (read : ofRecords records = .ok r) : r.commands.label = "command" := by
  rw [ofRecords_eq] at read
  cases made : records.mapM Command.ofRecord with
  | error fault =>
    rw [made] at read
    cases read
  | ok commands =>
    rw [made] at read
    cases read
    exact label_register (.empty "command") commands

end Routine

/-! ## Programs -/

namespace Program

/-- The events are labelled as events, and the commands of each of them as commands. -/
structure Labelled (p : Program) : Prop where
  events : p.events.label = "event"
  commands : ∀ entry ∈ p.entries, entry.2.routine.commands.label = "command"

theorem labelled_empty : empty.Labelled where
  events := rfl
  commands := by simp [entries, Roster.entries, empty, Roster.empty]

theorem label_addEvent (p : Program) (event : Event) :
    (p.addEvent event).state.events.label = p.events.label := by
  unfold addEvent
  split <;> rfl

theorem label_addEvents (p : Program) (events : List Event) :
    (p.addEvents events).events.label = p.events.label := by
  induction events generalizing p with
  | nil => rfl
  | cons event rest ih => rw [addEvents, ih, label_addEvent]

theorem label_of_ofRecord {record : EventRecord} {event : Event}
    (read : Event.ofRecord record = .ok event) : event.routine.commands.label = "command" := by
  unfold Event.ofRecord at read
  split at read
  · cases read
  · cases made : Routine.ofRecords record.commandList with
    | error fault =>
      rw [made] at read
      cases read
    | ok routine =>
      rw [made] at read
      cases read
      exact Routine.label_ofRecords made

namespace Labelled

variable {p q : Program}

theorem fault_event (labelled : p.Labelled) (h : Handle Event) :
    p.events.fault h = .unregistered "event" h.id := by
  rw [Roster.fault, labelled.events]

theorem removeEvent (labelled : p.Labelled) (h : Handle Event) : (p.removeEvent h).Labelled := by
  refine ⟨labelled.events, fun entry he => ?_⟩
  rw [entries, Program.removeEvent, Roster.entries_remove] at he
  exact labelled.commands entry (List.mem_of_mem_filter he)

theorem setLock (labelled : p.Labelled) (on : Bool) : (p.setLock on).Labelled := by
  refine ⟨labelled.events, ?_⟩
  rw [entries, Program.setLock, Roster.entries_mapObjects]
  exact List.forall_mem_map.mpr labelled.commands

theorem effect (labelled : p.Labelled) (wf : p.WellFormed) {edit : Edit} {reply : Reply}
    (effect : Effect p edit reply q) : q.Labelled := by
  cases effect with
  | add kind parameters records routine _ read =>
    refine ⟨labelled.events, fun entry he => ?_⟩
    rw [entries, Roster.entries_register wf.events, List.mem_append, List.mem_singleton] at he
    rcases he with old | rfl
    · exact labelled.commands entry old
    · exact Routine.label_ofRecords read
  | delete h => exact labelled.removeEvent h
  | deleteSelected h => exact labelled.removeEvent h
  | replace h kind parameters event =>
    exact ⟨labelled.events,
      Roster.forall_entries_modify labelled.commands fun x hx => labelled.commands (h, x) hx⟩
  | select => exact ⟨labelled.events, labelled.commands⟩
  | selectAt => exact ⟨labelled.events, labelled.commands⟩
  | clearSelection => exact ⟨labelled.events, labelled.commands⟩
  | load records selectFirst events _ read =>
    have loaded := addEvents_induction (P := fun event => event.routine.commands.label = "command")
      (p := { p with events := p.events.clear }) wf.events.clear (by simp [entries])
      (forall_of_mapM read fun read => label_of_ofRecord read)
    exact ⟨(label_addEvents _ events).trans labelled.events, loaded.2⟩
  | lock on => exact labelled.setLock on
  | inEvent h event found edit reply routine effect =>
    refine ⟨labelled.events, Roster.forall_entries_modify labelled.commands fun x hx => ?_⟩
    have mem := wf.events.mem_entries_iff.mpr found
    exact effect.label_eq.trans (labelled.commands (h, event) mem)

theorem apply (labelled : p.Labelled) (wf : p.WellFormed) (edit : Edit) :
    (p.apply edit).state.Labelled := by
  rcases p.apply_spec wf.events edit with same | ⟨reply, -, effect⟩
  · rwa [same]
  · exact labelled.effect wf effect

theorem run (labelled : p.Labelled) (wf : p.WellFormed) (edits : List Edit) :
    (p.run edits).Labelled := by
  induction edits generalizing p with
  | nil => exact labelled
  | cons edit edits ih => exact ih (labelled.apply wf edit) (wf.apply edit)

end Labelled

end Program

/-! ## Faults of reading -/

namespace Fault

end Fault

end RobotProgram
