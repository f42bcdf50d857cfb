import RobotProgram.Proofs.Routine.Handles

/-!
# Handles of events

No handle is given out twice, neither for events nor for the commands of an event. The routine that
a handle of an event leads to is the one that came with the event, after the operations that were
carried out in that event; all others, replacing the event among them, leave it alone.

## Main definitions

* `Program.issued`, `Program.withdrawn`: the handles that an operation gives out and takes away.
* `Program.Edit.onRoutine`: what an operation is for the routine of one event.
* `Program.HandlesLast`: handles stand for the same objects over every run.
-/

namespace RobotProgram.Program

open Roster (Turnover collect)

variable {p q : Program}

/-! ## Giving out and taking away -/

/-- The handles that an operation gives out when it is carried out. -/
def Edit.issued (reply : Reply) (after : Program) : Edit → List (Handle Event)
  | .load _ _ => after.events.order
  | _ =>
    match reply with
    | .added h => h.toList
    | _ => []

/-- The handles that an operation takes away when it is carried out. -/
def Edit.withdrawn (before : Program) (reply : Reply) : Edit → List (Handle Event)
  | .load _ _ => before.events.order
  | _ =>
    match reply with
    | .deletion (.deleted h) _ => [h]
    | _ => []

def issued (p : Program) (edit : Edit) : List (Handle Event) :=
  match (p.apply edit).answer with
  | .ok reply => if p.rejects edit then [] else edit.issued reply (p.apply edit).state
  | .error _ => []

def withdrawn (p : Program) (edit : Edit) : List (Handle Event) :=
  match (p.apply edit).answer with
  | .ok reply => if p.rejects edit then [] else edit.withdrawn p reply
  | .error _ => []

theorem issued_cases (wf : p.WellFormed) (edit : Edit) :
    (p.apply edit).state = p ∧ p.issued edit = [] ∧ p.withdrawn edit = [] ∨
      ∃ reply, Effect p edit reply (p.apply edit).state ∧
        p.issued edit = edit.issued reply (p.apply edit).state ∧
        p.withdrawn edit = edit.withdrawn p reply := by
  unfold issued withdrawn
  rcases p.rejects_or_effect wf.events edit with ⟨same, rejected⟩ | ⟨reply, answer, effect⟩
  · refine .inl ⟨same, ?_⟩
    split
    · exact ⟨if_pos rejected, if_pos rejected⟩
    · exact ⟨rfl, rfl⟩
  · have accepted := Bool.eq_false_iff.mp (effect.accepts answer)
    rw [answer]
    exact .inr ⟨reply, effect, if_neg accepted, if_neg accepted⟩

/-- Adding events gives out consecutive handles, which come last in the order. -/
theorem turnover_addEvents (p : Program) (events : List Event) :
    ∃ n, p.events.Turnover ((List.range' p.events.next n).map Handle.mk) []
        (p.addEvents events).events ∧
      (p.addEvents events).events.order =
        p.events.order ++ (List.range' p.events.next n).map Handle.mk := by
  induction events generalizing p with
  | nil => exact ⟨0, .refl _, (List.append_nil _).symm⟩
  | cons event rest ih =>
    obtain ⟨n, turnover, order⟩ := ih (p.addEvent event).state
    rw [addEvents]
    cases hd : p.duplicate? event.kind event.parameters none with
    | some h =>
      rw [addEvent_of_duplicate event hd] at turnover order ⊢
      exact ⟨n, turnover, order⟩
    | none =>
      rw [(addEvent_of_new event hd).2] at turnover order ⊢
      have last : (p.events.register event).order = p.events.order ++ [p.events.nextHandle] :=
        Roster.insertAt_length _ _
      refine ⟨n + 1, (Turnover.registerAt ..).trans turnover, ?_⟩
      rw [order, last, List.append_assoc]
      rfl

/-- Only events that are there are taken away. -/
theorem Effect.withdrawn_subset (wf : p.events.WellFormed) {edit : Edit} {reply : Reply}
    (effect : Effect p edit reply q) : edit.withdrawn p reply ⊆ p.events.order := by
  cases effect with
  | delete h _ _ event _ _ found =>
    exact List.cons_subset.mpr ⟨wf.mem_order found, List.nil_subset _⟩
  | deleteSelected h _ _ event _ _ found =>
    exact List.cons_subset.mpr ⟨wf.mem_order found, List.nil_subset _⟩
  | load => exact List.Subset.refl _
  | _ => exact List.nil_subset _

theorem Effect.turnover (wf : p.events.WellFormed) {edit : Edit} {reply : Reply}
    (effect : Effect p edit reply q) :
    p.events.Turnover (edit.issued reply q) (edit.withdrawn p reply) q.events := by
  have present := effect.withdrawn_subset wf
  cases effect with
  | add => exact .registerAt ..
  | delete h => exact Turnover.removeAll wf present
  | deleteSelected h => exact Turnover.removeAll wf present
  | replace => exact .modify ..
  | select => exact .refl _
  | selectAt => exact .refl _
  | clearSelection => exact .refl _
  | load records selectFirst events =>
    obtain ⟨n, added, order⟩ := turnover_addEvents { p with events := p.events.clear } events
    have issued : (Edit.load records selectFirst).issued .done (p.reloaded events selectFirst) =
      (List.range' p.events.next n).map Handle.mk := order
    have loaded := (Turnover.clear wf).trans added
    rw [List.nil_append, List.append_nil] at loaded
    exact issued ▸ loaded
  | lock on => exact .of_same rfl fun _ => .rfl
  | inEvent => exact .modify ..

/-- The state after an operation. -/
def step (p : Program) (edit : Edit) : Program := (p.apply edit).state

theorem turns : Roster.Turns step events issued withdrawn WellFormed where
  wellFormed _ wf := wf.events
  kept _ edit wf := wf.apply edit
  present p edit wf := by
    obtain ⟨-, -, none⟩ | ⟨reply, effect, -, withdrawn⟩ := issued_cases wf edit
    · simp [none]
    · rw [withdrawn]
      exact effect.withdrawn_subset wf.events
  turnover p edit wf := by
    obtain ⟨same, none, none'⟩ | ⟨reply, effect, issued, withdrawn⟩ := issued_cases wf edit
    · rw [step, same, none, none']
      exact .refl _
    · rw [issued, withdrawn]
      exact effect.turnover wf.events

/-! ## Routines -/

/-- What an operation is for the routine of an event. -/
def Edit.onRoutine (h : Handle Event) : Edit → List Routine.Edit
  | .inEvent k edit => if k = h then [edit] else []
  | .lock on => [.lock on]
  | _ => []

theorem Effect.routine_kept (wf : p.events.WellFormed) {edit : Edit} {reply : Reply}
    (effect : Effect p edit reply q) {h : Handle Event} {event : Event}
    (found : p.events.find? h = some event) (kept : h ∉ edit.withdrawn p reply)
    (other : edit.onRoutine h = []) :
    ∃ event', q.events.find? h = some event' ∧ event'.routine = event.routine := by
  cases effect with
  | add kind parameters records routine =>
    have old : h ≠ p.events.nextHandle := fun same =>
      wf.nextHandle_notMem (same ▸ wf.mem_order found)
    exact ⟨event, by rw [Roster.register, Roster.find?_registerAt wf, if_neg old, found], rfl⟩
  | delete k =>
    have other : h ≠ k := fun same => kept (same ▸ List.mem_singleton_self _)
    exact ⟨event, by rw [removeEvent, Roster.find?_remove, if_neg other, found], rfl⟩
  | deleteSelected k =>
    have other : h ≠ k := fun same => kept (same ▸ List.mem_singleton_self _)
    exact ⟨event, by rw [removeEvent, Roster.find?_remove, if_neg other, found], rfl⟩
  | replace k kind parameters =>
    rw [Roster.find?_modify, found]
    refine ⟨_, rfl, ?_⟩
    split <;> rfl
  | select => exact ⟨event, found, rfl⟩
  | selectAt => exact ⟨event, found, rfl⟩
  | clearSelection => exact ⟨event, found, rfl⟩
  | load => exact absurd (wf.mem_order found) kept
  | lock on => cases other
  | inEvent k _ _ edit =>
    rw [setRoutine, Roster.find?_modify, found]
    have other : h ≠ k := by
      rintro rfl
      simp [Edit.onRoutine] at other
    exact ⟨event, by rw [if_neg other]; rfl, rfl⟩

theorem withdrawn_replace (wf : p.WellFormed) (h : Handle Event) (kind : EventKind)
    (parameters : Parameters) : p.withdrawn (.replace h kind parameters) = [] := by
  obtain ⟨-, -, none⟩ | ⟨reply, effect, -, withdrawn⟩ :=
    issued_cases wf (.replace h kind parameters)
  · exact none
  · rw [withdrawn]
    generalize (p.apply (.replace h kind parameters)).state = q at effect
    cases effect
    rfl

/-- An operation carried out in an event changes its routine, and the others leave it alone. -/
theorem routine_step (wf : p.WellFormed) {h : Handle Event} {event : Event}
    (found : p.events.find? h = some event) {edit : Edit} (kept : h ∉ p.withdrawn edit) :
    ∃ event', (p.apply edit).state.events.find? h = some event' ∧
      event'.routine = event.routine.run (edit.onRoutine h) := by
  by_cases other : edit.onRoutine h = []
  · rw [other]
    obtain ⟨same, -⟩ | ⟨reply, effect, -, withdrawn⟩ := issued_cases wf edit
    · exact ⟨event, same.symm ▸ found, rfl⟩
    · exact effect.routine_kept wf.events found (withdrawn ▸ kept) other
  · cases edit with
    | lock on =>
      refine ⟨{ event with routine := { event.routine with locked := on } }, ?_, rfl⟩
      exact (Roster.find?_mapObjects ..).trans (congrArg _ found)
    | inEvent k edit =>
      obtain rfl : k = h := by
        by_contra different
        exact other (if_neg different)
      refine ⟨{ event with routine := (event.routine.apply edit).state }, ?_, ?_⟩
      · simp [apply, inEvent, found, setRoutine, Roster.find?_modify]
      · simp [Edit.onRoutine, Routine.run]
    | _ => exact absurd rfl other

theorem routine_run (wf : p.WellFormed) {h : Handle Event} {event : Event}
    (found : p.events.find? h = some event) {edits : List Edit}
    (kept : h ∉ collect step withdrawn p edits) :
    ∃ event', (p.run edits).events.find? h = some event' ∧
      event'.routine = event.routine.run (edits.flatMap (·.onRoutine h)) := by
  induction edits generalizing p event with
  | nil => exact ⟨event, found, rfl⟩
  | cons edit rest ih =>
    rw [collect, List.mem_append, not_or] at kept
    obtain ⟨event', found', routine⟩ := routine_step wf found kept.1
    obtain ⟨event'', found'', later⟩ := ih (wf.apply edit) found' kept.2
    refine ⟨event'', found'', ?_⟩
    rw [later, routine, List.flatMap_cons, Routine.run, Routine.run, Routine.run, List.foldl_append]

/-- The records of the routines that an operation brings into the program. -/
def Edit.routines : Edit → List (List CommandRecord)
  | .add _ _ records => [records]
  | .load records _ => records.map (·.commandList)
  | _ => []

/-- A routine of records is an empty one that has loaded them. -/
theorem eq_run_of_ofRecords {records : List CommandRecord} {routine : Routine}
    (read : Routine.ofRecords records = .ok routine) :
    routine = Routine.empty.run [.load records] := by
  unfold Routine.ofRecords at read
  dsimp only at read
  cases answer : (Routine.empty.load records).answer with
  | error fault =>
    rw [answer] at read
    cases read
  | ok =>
    rw [answer] at read
    exact (Except.ok.inj read).symm

theorem ofRecords_of_ofRecord {record : EventRecord} {event : Event}
    (read : Event.ofRecord record = .ok event) :
    Routine.ofRecords event.toRecord.commandList = .ok event.routine := by
  rw [(ofRecord_spec read).2.2]
  unfold Event.ofRecord at read
  split at read
  · cases read
  · cases routine : Routine.ofRecords record.commandList with
    | error fault =>
      rw [routine] at read
      cases read
    | ok =>
      rw [routine] at read
      cases read
      rfl

theorem Effect.routine_issued (wf : p.events.WellFormed) {edit : Edit} {reply : Reply}
    (effect : Effect p edit reply q) {h : Handle Event} (mem : h ∈ edit.issued reply q) :
    ∃ records ∈ edit.routines, ∃ event, q.events.find? h = some event ∧
      Routine.ofRecords records = .ok event.routine := by
  cases effect with
  | add kind parameters records routine _ read =>
    obtain rfl := List.mem_singleton.mp mem
    refine ⟨records, List.mem_singleton_self _, .new kind parameters routine, ?_, read⟩
    rw [Roster.register, Roster.find?_registerAt wf, if_pos rfl]
  | load records selectFirst events _ read =>
    have origin : ∀ event ∈ events, ∃ commands ∈ (Edit.load records selectFirst).routines,
        Routine.ofRecords commands = .ok event.routine := by
      intro event he
      have written := map_of_mapM (fun h => (ofRecord_spec h).2.2) read
      have brought : event.toRecord ∈ records := written ▸ List.mem_map_of_mem he
      exact ⟨_, List.mem_map_of_mem brought, forall_of_mapM read ofRecords_of_ofRecord event he⟩
    obtain ⟨wf', all⟩ := addEvents_induction (p := { p with events := p.events.clear }) wf.clear
      (by simp [entries]) origin
    obtain ⟨event, found⟩ := wf'.find?_some_of_mem_order mem
    obtain ⟨commands, brought, read⟩ := all (h, event) (wf'.mem_entries_iff.mpr found)
    exact ⟨commands, brought, event, found, read⟩
  | _ => cases mem

/-! ## Whole runs -/

/--
Over every run of a program, and every run of a routine, no handle is given out again or found after
it was taken away, and what it was given out for is what it leads to.
-/
structure HandlesLast : Prop where
  events : Roster.Lasting step Program.events issued withdrawn empty
  commands :
    Roster.Lasting Routine.step Routine.commands Routine.issued Routine.withdrawn Routine.empty
  /-- A command keeps the kind and the performing class that it was made with. -/
  names : ∀ before edit after, ∀ n ∈ (Routine.empty.run before).created edit,
    n.1 ∉ collect Routine.step Routine.withdrawn ((Routine.empty.run before).step edit) after →
      ∃ c, (Routine.empty.run (before ++ edit :: after)).commands.resolve n.1 = .ok c ∧
        c.kind.gui = n.2.1 ∧ c.logic = n.2.2
  /-- The routine of an event is one that went through what was done in that event, no more. -/
  routines : ∀ before edit after, ∀ h ∈ (empty.run before).issued edit,
    h ∉ collect step withdrawn ((empty.run before).step edit) after →
      ∃ records ∈ edit.routines, ∃ event,
        (empty.run (before ++ edit :: after)).events.resolve h = .ok event ∧
        event.routine = Routine.empty.run (.load records :: after.flatMap (·.onRoutine h))
  /-- An event that is replaced has the same commands under the same handles. -/
  replaced : ∀ edits h event, (empty.run edits).events.resolve h = .ok event →
    ∀ kind parameters, ∃ event',
      ((empty.run edits).step (.replace h kind parameters)).events.resolve h = .ok event' ∧
        ∀ k, event'.routine.commands.resolve k = event.routine.commands.resolve k

theorem handlesLast : HandlesLast where
  events := turns.lasting wellFormed_empty rfl
  commands := Routine.turns.lasting Routine.wellFormed_empty rfl
  names before edit after n mem kept := by
    have reached := Routine.wellFormed_empty.run before
    have named := Routine.names_run_created reached mem kept
    have wf := (reached.apply edit).run after
    obtain ⟨c, found, same⟩ := (Routine.mem_names_iff wf.commands).mp named
    rw [Routine.run, List.foldl_append]
    exact ⟨c, Roster.resolve_eq_ok_iff.mpr found, same⟩
  routines before edit after h mem kept := by
    have reached := wellFormed_empty.run before
    obtain ⟨-, none, -⟩ | ⟨reply, effect, issued, -⟩ := issued_cases reached edit
    · rw [none] at mem
      cases mem
    obtain ⟨records, brought, event, found, read⟩ :=
      effect.routine_issued reached.events (issued ▸ mem)
    obtain ⟨event', found', routine⟩ := routine_run (reached.apply edit) found kept
    refine ⟨records, brought, event', ?_, ?_⟩
    · rw [run, List.foldl_append]
      exact Roster.resolve_eq_ok_iff.mpr found'
    · rw [routine, eq_run_of_ofRecords read]
      rfl
  replaced edits h event found kind parameters := by
    have reached := wellFormed_empty.run edits
    have kept : h ∉ (empty.run edits).withdrawn (.replace h kind parameters) := by
      simp [withdrawn_replace reached]
    obtain ⟨event', found', routine⟩ :=
      routine_step reached (Roster.resolve_eq_ok_iff.mp found) kept
    refine ⟨event', Roster.resolve_eq_ok_iff.mpr found', fun k => ?_⟩
    rw [routine]
    rfl

end RobotProgram.Program
