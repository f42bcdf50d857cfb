import RobotProgram.Program
import RobotProgram.Proofs.Routine.Records

/-!
# Well-formed programs

What an operation can do to a program is said once, by `Effect`; that programs stay well formed, and
that locked ones stay as they are, is read off it. An operation that is not carried out is rejected.

## Main definitions

* `Program.rejects`: whether an operation is rejected.
* `Program.Effect`: what an operation that is carried out answers and does.
* `Program.WellFormed`: the invariant, kept by `WellFormed.apply` and `WellFormed.run`.
* `Program.LocksAgree`: every routine is locked when the program is.
-/

namespace RobotProgram

def Deletion.rejects : Deletion → Bool
  | .deleted _ => false
  | .noSelection | .declined | .locked => true

def Replacement.rejects : Replacement → Bool
  | .replaced => false
  | .duplicate | .locked => true

namespace Program

/-! ## Adding and loading events -/

theorem duplicate?_eq_none_iff {p : Program} {kind : EventKind} {parameters : Parameters}
    {excluding : Option (Handle Event)} :
    p.duplicate? kind parameters excluding = none ↔
      ∀ entry ∈ p.entries,
        some entry.1 ≠ excluding → entry.2.conflicts kind parameters = false := by
  simp [duplicate?]

theorem addEvent_of_duplicate {p : Program} (event : Event) {h : Handle Event}
    (hd : p.duplicate? event.kind event.parameters none = some h) :
    (p.addEvent event).state = p := by
  rw [addEvent, hd]

theorem answer_addEvent_of_duplicate {p : Program} (event : Event) {h : Handle Event}
    (hd : p.duplicate? event.kind event.parameters none = some h) :
    (p.addEvent event).answer = none := by
  rw [addEvent, hd]

theorem addEvent_of_new {p : Program} (event : Event)
    (hd : p.duplicate? event.kind event.parameters none = none) :
    (p.addEvent event).answer = some p.events.nextHandle ∧
      (p.addEvent event).state =
        { p with events := p.events.register event, selected := some p.events.nextHandle } := by
  rw [addEvent, hd]
  exact ⟨rfl, rfl⟩

/-- What every event that is kept or added satisfies, all events of the result satisfy. -/
theorem addEvent_induction {p : Program} (wf : p.events.WellFormed) {P : Event → Prop}
    (old : ∀ entry ∈ p.entries, P entry.2) {event : Event} (new : P event) :
    (p.addEvent event).state.events.WellFormed ∧
      ∀ entry ∈ (p.addEvent event).state.entries, P entry.2 := by
  cases hd : p.duplicate? event.kind event.parameters none with
  | some h => rw [addEvent_of_duplicate event hd]; exact ⟨wf, old⟩
  | none =>
    rw [(addEvent_of_new event hd).2]
    refine ⟨wf.register event, fun entry he => ?_⟩
    rw [entries, Roster.entries_register wf, List.mem_append, List.mem_singleton] at he
    rcases he with he | rfl
    · exact old entry he
    · exact new

theorem wellFormed_events_addEvent {p : Program} (wf : p.events.WellFormed) (event : Event) :
    (p.addEvent event).state.events.WellFormed :=
  (addEvent_induction (P := fun _ => True) wf (fun _ _ => trivial) trivial).1

theorem addEvents_induction {p : Program} (wf : p.events.WellFormed) {P : Event → Prop}
    (old : ∀ entry ∈ p.entries, P entry.2) {events : List Event} (new : ∀ event ∈ events, P event) :
    (p.addEvents events).events.WellFormed ∧ ∀ entry ∈ (p.addEvents events).entries, P entry.2 := by
  induction events generalizing p with
  | nil => exact ⟨wf, old⟩
  | cons event rest ih =>
    obtain ⟨wf', old'⟩ := addEvent_induction wf old (new event List.mem_cons_self)
    exact ih wf' old' fun event he => new event (List.mem_cons_of_mem _ he)

@[simp] theorem locked_addEvent (p : Program) (event : Event) :
    (p.addEvent event).state.locked = p.locked := by
  unfold addEvent
  split <;> rfl

@[simp] theorem locked_addEvents (p : Program) (events : List Event) :
    (p.addEvents events).locked = p.locked := by
  induction events generalizing p with
  | nil => rfl
  | cons event rest ih => rw [addEvents, ih, locked_addEvent]

/-- The program after its events have been replaced by others, as far as none is a duplicate. -/
def reloaded (p : Program) (events : List Event) (selectFirst : Bool) : Program :=
  let full := { p with events := p.events.clear }.addEvents events
  { full with selected := if selectFirst then full.events.handleAt? 0 else none }

/-! ## Operations -/

def Reply.rejects : Reply → Bool
  | .added h => h.isNone
  | .deletion outcome _ => outcome.rejects
  | .replacement outcome => outcome.rejects
  | .selected found => !found
  | .routine reply => reply.rejects
  | .done => false

/-- Loading is passed over while the program, or the routine that is loaded, is locked. -/
def ignores (p : Program) : Edit → Bool
  | .load _ _ => p.locked
  | .inEvent h edit => (p.events.find? h).any (·.routine.ignores edit)
  | _ => false

def rejects (p : Program) (edit : Edit) : Bool :=
  refused Reply.rejects (p.apply edit).answer || p.ignores edit

theorem rejects_inEvent {p : Program} {h : Handle Event} {event : Event}
    (found : p.events.find? h = some event) (edit : Routine.Edit) :
    p.rejects (.inEvent h edit) = event.routine.rejects edit := by
  rw [rejects, apply, Outcome.answer_map, refused_map, inEvent, found, ignores, found]
  rfl

/-- Whether an operation locks or unlocks something. -/
def Edit.setsLock : Edit → Bool
  | .lock _ | .inEvent _ (.lock _) => true
  | _ => false

/-- What an operation that is carried out answers, and what it makes of a program. -/
inductive Effect (p : Program) : Edit → Reply → Program → Prop where
  | add (kind : EventKind) (parameters : Parameters) (records : List CommandRecord)
      (routine : Routine) (unlocked : p.locked = false)
      (read : Routine.ofRecords records = .ok routine)
      (new : p.duplicate? kind parameters none = none) :
      Effect p (.add kind parameters records) (.added (some p.events.nextHandle))
        { p with
          events := p.events.register (.new kind parameters routine)
          selected := some p.events.nextHandle }
  | delete (h : Handle Event) (answer : Bool) (question : String) (event : Event)
      (unlocked : p.locked = false) (selected : p.selected.isSome = true)
      (found : p.events.find? h = some event)
      (confirmed : event.routine.length ≠ 0 → answer = true) :
      Effect p (.delete h answer question)
        (.deletion (.deleted h) (if event.routine.length ≠ 0 then [question] else []))
        (p.removeEvent h)
  | deleteSelected (h : Handle Event) (answer : Bool) (question : String) (event : Event)
      (unlocked : p.locked = false) (selected : p.selected = some h)
      (found : p.events.find? h = some event)
      (confirmed : event.routine.length ≠ 0 → answer = true) :
      Effect p (.deleteSelected answer question)
        (.deletion (.deleted h) (if event.routine.length ≠ 0 then [question] else []))
        (p.removeEvent h)
  | replace (h : Handle Event) (kind : EventKind) (parameters : Parameters) (event : Event)
      (unlocked : p.locked = false) (found : p.events.find? h = some event)
      (new : p.duplicate? kind parameters (some h) = none) :
      Effect p (.replace h kind parameters) (.replacement .replaced)
        { p with events := p.events.modify h fun e => .new kind parameters e.routine }
  | select (h : Handle Event) (known : p.events.contains h = true) :
      Effect p (.select h) .done { p with selected := some h }
  | selectAt (index : Nat) (h : Handle Event) (found : p.events.handleAt? index = some h) :
      Effect p (.selectAt index) (.selected true) { p with selected := some h }
  | clearSelection : Effect p .clearSelection .done { p with selected := none }
  | load (records : List EventRecord) (selectFirst : Bool) (events : List Event)
      (unlocked : p.locked = false) (read : records.mapM Event.ofRecord = .ok events) :
      Effect p (.load records selectFirst) .done (p.reloaded events selectFirst)
  | lock (on : Bool) : Effect p (.lock on) .done (p.setLock on)
  | inEvent (h : Handle Event) (event : Event) (found : p.events.find? h = some event)
      (edit : Routine.Edit) (reply : Routine.Reply) (routine : Routine)
      (effect : event.routine.Effect edit reply routine) :
      Effect p (.inEvent h edit) (.routine reply) (p.setRoutine h routine)

section Effect

variable (p : Program)

theorem add_spec (kind : EventKind) (parameters : Parameters) (records : List CommandRecord) :
    (p.add kind parameters records).state = p ∧
        refused Option.isNone (p.add kind parameters records).answer = true ∨
      ∃ h, (p.add kind parameters records).answer = .ok h ∧
        Effect p (.add kind parameters records) (.added h)
          (p.add kind parameters records).state := by
  unfold add
  split
  · exact .inl ⟨rfl, rfl⟩
  dsimp only
  split
  · exact .inl ⟨rfl, rfl⟩
  · rename_i unlocked _ routine read
    cases hd : p.duplicate? kind parameters none with
    | some h =>
      have kept := addEvent_of_duplicate (p := p) (.new kind parameters routine) hd
      have answer := answer_addEvent_of_duplicate (p := p) (.new kind parameters routine) hd
      exact .inl ⟨kept, congrArg Option.isNone answer⟩
    | none =>
      refine .inr ⟨_, rfl, ?_⟩
      have done := addEvent_of_new (p := p) (.new kind parameters routine) hd
      rw [done.1, done.2]
      exact .add kind parameters records routine (eq_false_of_ne_true unlocked) read hd

theorem delete_spec (h : Handle Event) (answer : Bool) (question : String) :
    (p.delete h answer question).state = p ∧
        refused (·.1.rejects) (p.delete h answer question).answer = true ∨
      ∃ event, (p.locked = false ∧ p.selected.isSome = true ∧ p.events.find? h = some event ∧
          (event.routine.length ≠ 0 → answer = true)) ∧
        (p.delete h answer question).answer =
          .ok (.deleted h, if event.routine.length ≠ 0 then [question] else []) ∧
        (p.delete h answer question).state = p.removeEvent h := by
  unfold delete
  split
  · exact .inl ⟨rfl, rfl⟩
  split
  · exact .inl ⟨rfl, rfl⟩
  split
  · exact .inl ⟨rfl, rfl⟩
  · rename_i selected _ event found unlocked
    dsimp only
    split
    · exact .inl ⟨rfl, rfl⟩
    · rename_i asks
      refine .inr ⟨event, ⟨eq_false_of_ne_true unlocked, ?_, found, ?_⟩, rfl, rfl⟩
      · exact Option.isSome_iff_ne_none.mpr (by simpa using selected)
      · simpa using asks

theorem deleteSelected_spec (answer : Bool) (question : String) :
    (p.deleteSelected answer question).state = p ∧
        refused (·.1.rejects) (p.deleteSelected answer question).answer = true ∨
      ∃ r, (p.deleteSelected answer question).answer = .ok r ∧
        Effect p (.deleteSelected answer question) (.deletion r.1 r.2)
          (p.deleteSelected answer question).state := by
  unfold deleteSelected
  split
  · rename_i h selected
    rcases p.delete_spec h answer question with rejected |
      ⟨event, ⟨unlocked, -, found, confirmed⟩, answered, state⟩
    · exact .inl rejected
    · rw [answered, state]
      exact .inr
        ⟨_, rfl, .deleteSelected h answer question event unlocked selected found confirmed⟩
  · exact .inl ⟨rfl, rfl⟩

theorem replace_spec (h : Handle Event) (kind : EventKind) (parameters : Parameters) :
    (p.replace h kind parameters).state = p ∧
        refused Replacement.rejects (p.replace h kind parameters).answer = true ∨
      (p.replace h kind parameters).answer = .ok .replaced ∧
        Effect p (.replace h kind parameters) (.replacement .replaced)
          (p.replace h kind parameters).state := by
  unfold replace
  split
  · exact .inl ⟨rfl, rfl⟩
  split
  · exact .inl ⟨rfl, rfl⟩
  split
  · exact .inl ⟨rfl, rfl⟩
  · rename_i event found unlocked _ new
    exact .inr ⟨rfl, .replace h kind parameters event (eq_false_of_ne_true unlocked) found new⟩

theorem select_spec (h : Handle Event) :
    (p.select h).state = p ∧ refused (fun _ => false) (p.select h).answer = true ∨
      (p.select h).answer = .ok () ∧ Effect p (.select h) .done (p.select h).state := by
  unfold select
  split
  · exact .inr ⟨rfl, .select h ‹_›⟩
  · exact .inl ⟨rfl, rfl⟩

theorem selectAt_spec (index : Nat) :
    (p.selectAt index).state = p ∧ (p.selectAt index).answer = false ∨
      (p.selectAt index).answer = true ∧
        Effect p (.selectAt index) (.selected true) (p.selectAt index).state := by
  unfold selectAt
  split
  · exact .inr ⟨rfl, .selectAt index _ ‹_›⟩
  · exact .inl ⟨rfl, rfl⟩

theorem load_spec (records : List EventRecord) (selectFirst : Bool) :
    (p.load records selectFirst).state = p ∧ p.rejects (.load records selectFirst) = true ∨
      (p.load records selectFirst).answer = .ok () ∧
        Effect p (.load records selectFirst) .done (p.load records selectFirst).state := by
  rw [rejects, apply, Outcome.answer_map, refused_map]
  unfold load
  split
  · exact .inl ⟨rfl, rfl⟩
  · rename_i events read
    rw [Outcome.state_after, Outcome.answer_after]
    split
    · rename_i locked
      exact .inl ⟨rfl, locked⟩
    · exact .inr ⟨rfl, .load records selectFirst events (eq_false_of_ne_true ‹_›) read⟩

theorem inEvent_spec (wf : p.events.WellFormed) (h : Handle Event) (edit : Routine.Edit) :
    (p.inEvent h edit).state = p ∧ p.rejects (.inEvent h edit) = true ∨
      ∃ reply, (p.inEvent h edit).answer = .ok reply ∧
        Effect p (.inEvent h edit) (.routine reply) (p.inEvent h edit).state := by
  cases found : p.events.find? h with
  | none => exact .inl (by simp [rejects, apply, inEvent, found, refused, Except.map])
  | some event =>
    rw [rejects_inEvent found]
    simp only [inEvent, found, Outcome.state_lift, Outcome.answer_lift]
    rcases event.routine.rejects_or_effect edit with ⟨same, rejected⟩ | ⟨reply, answer, effect⟩
    -- storing the routine that is there already leaves the roster as it is
    · rw [same, setRoutine, Roster.modify_eq_self wf found rfl]
      exact .inl ⟨rfl, rejected⟩
    · exact .inr ⟨reply, answer, .inEvent h event found edit reply _ effect⟩

/-- An operation is rejected or carried out just as the function behind it. -/
theorem rejects_or_effect_of_map {ρ : Type} {edit : Edit} {o : Outcome Program (Except Fault ρ)}
    {reply : ρ → Reply} (same : p.apply edit = o.map (.map reply))
    (spec : o.state = p ∧ refused (fun r => (reply r).rejects) o.answer = true ∨
      ∃ r, o.answer = .ok r ∧ Effect p edit (reply r) o.state) :
    (p.apply edit).state = p ∧ p.rejects edit = true ∨
      ∃ reply, (p.apply edit).answer = .ok reply ∧ Effect p edit reply (p.apply edit).state := by
  rw [rejects, same, Outcome.answer_map, Outcome.state_map, refused_map]
  rcases spec with ⟨kept, rejected⟩ | ⟨r, answer, effect⟩
  · exact .inl ⟨kept, Bool.or_eq_true_iff.mpr (.inl rejected)⟩
  · exact .inr ⟨reply r, by rw [answer]; rfl, effect⟩

/-- An operation is rejected and changes nothing, or it is carried out. -/
theorem rejects_or_effect (wf : p.events.WellFormed) (edit : Edit) :
    (p.apply edit).state = p ∧ p.rejects edit = true ∨
      ∃ reply, (p.apply edit).answer = .ok reply ∧ Effect p edit reply (p.apply edit).state := by
  cases edit with
  | add kind parameters records =>
    exact p.rejects_or_effect_of_map rfl (p.add_spec kind parameters records)
  | delete h answer question =>
    refine p.rejects_or_effect_of_map rfl ((p.delete_spec h answer question).imp_right ?_)
    rintro ⟨event, ⟨unlocked, selected, found, confirmed⟩, answered, state⟩
    exact ⟨_, answered, state ▸ .delete h answer question event unlocked selected found confirmed⟩
  | deleteSelected answer question =>
    exact p.rejects_or_effect_of_map rfl (p.deleteSelected_spec answer question)
  | replace h kind parameters =>
    refine p.rejects_or_effect_of_map rfl ((p.replace_spec h kind parameters).imp_right ?_)
    exact fun done => ⟨_, done⟩
  | select h =>
    refine p.rejects_or_effect_of_map rfl ((p.select_spec h).imp_right ?_)
    exact fun done => ⟨_, done⟩
  | selectAt index =>
    rw [rejects, apply, Outcome.answer_map, Outcome.state_map]
    rcases p.selectAt_spec index with ⟨same, answer⟩ | ⟨answer, effect⟩
    · exact .inl ⟨same, by rw [answer]; rfl⟩
    · exact .inr ⟨_, by rw [answer]; rfl, effect⟩
  | clearSelection => exact .inr ⟨_, rfl, .clearSelection⟩
  | load records selectFirst =>
    refine (p.load_spec records selectFirst).imp_right fun ⟨answer, effect⟩ => ?_
    exact ⟨_, congrArg (Except.map fun _ => Reply.done) answer, effect⟩
  | lock on => exact .inr ⟨_, rfl, .lock on⟩
  | inEvent h edit =>
    refine (p.inEvent_spec wf h edit).imp_right fun ⟨reply, answer, effect⟩ => ?_
    exact ⟨_, congrArg (Except.map Reply.routine) answer, effect⟩

/-- An operation changes nothing, or it is carried out. -/
theorem apply_spec (wf : p.events.WellFormed) (edit : Edit) :
    (p.apply edit).state = p ∨
      ∃ reply, (p.apply edit).answer = .ok reply ∧ Effect p edit reply (p.apply edit).state :=
  (p.rejects_or_effect wf edit).imp_left And.left

/-- An operation that fails changes nothing. -/
theorem state_of_fault (wf : p.events.WellFormed) {edit : Edit} {fault : Fault}
    (failed : (p.apply edit).answer = .error fault) : (p.apply edit).state = p := by
  rcases p.apply_spec wf edit with same | ⟨reply, answer, -⟩
  · exact same
  · rw [failed] at answer
    cases answer

end Effect

theorem ofRecord_spec {record : EventRecord} {event : Event}
    (h : Event.ofRecord record = .ok event) :
    event.routine.WellFormed ∧ event.routine.locked = false ∧ event.toRecord = record := by
  unfold Event.ofRecord at h
  split at h
  · cases h
  · rename_i kind hkind
    cases hr : Routine.ofRecords record.commandList with
    | error e => rw [hr] at h; cases h
    | ok routine =>
      rw [hr] at h
      cases h
      obtain ⟨wf, unlocked, save⟩ := Routine.ofRecords_spec hr
      exact ⟨wf, unlocked, by simp [Event.toRecord, EventKind.gui_of_ofGui? hkind, save]⟩

theorem forall_of_mapM {records : List EventRecord} {events : List Event} {P : Event → Prop}
    (h : records.mapM Event.ofRecord = .ok events)
    (hP : ∀ {record event}, Event.ofRecord record = .ok event → P event) :
    ∀ event ∈ events, P event := by
  induction records generalizing events with
  | nil => cases h; simp
  | cons record rest ih =>
    obtain ⟨event, later, he, hl, rfl⟩ := mapM_cons_eq_ok_iff.mp h
    exact List.forall_mem_cons.mpr ⟨hP he, ih hl⟩

/-! ## The invariant -/

/-- Events and their routines are in order, and the selected event is one of them. -/
structure WellFormed (p : Program) : Prop where
  events : p.events.WellFormed
  routines : ∀ entry ∈ p.entries, entry.2.routine.WellFormed
  selected : ∀ h ∈ p.selected, h ∈ p.events.order

theorem wellFormed_empty : empty.WellFormed :=
  ⟨Roster.wellFormed_empty _, by simp [entries, Roster.entries, empty, Roster.empty],
    by simp [empty]⟩

namespace WellFormed

variable {p q : Program}

theorem routine (wf : p.WellFormed) {h : Handle Event} {event : Event}
    (found : p.events.find? h = some event) : event.routine.WellFormed :=
  wf.routines (h, event) (wf.events.mem_entries_iff.mpr found)

theorem select (wf : p.WellFormed) {h : Handle Event} (known : h ∈ p.events.order) :
    WellFormed { p with selected := some h } :=
  ⟨wf.events, wf.routines, by simpa using known⟩

theorem addEvent (wf : p.WellFormed) (event : Event) (routine : event.routine.WellFormed) :
    (p.addEvent event).state.WellFormed := by
  obtain ⟨events, routines⟩ :=
    addEvent_induction (P := fun event => event.routine.WellFormed) wf.events wf.routines routine
  refine ⟨events, routines, ?_⟩
  cases hd : p.duplicate? event.kind event.parameters none with
  | some h => rw [addEvent_of_duplicate event hd]; exact wf.selected
  | none =>
    rw [(addEvent_of_new event hd).2]
    rintro h ⟨⟩
    exact Roster.mem_insertAt.mpr (.inl rfl)

theorem removeEvent (wf : p.WellFormed) (h : Handle Event) : (p.removeEvent h).WellFormed where
  events := wf.events.remove h
  routines entry he := by
    rw [entries, Program.removeEvent, Roster.entries_remove] at he
    exact wf.routines entry (List.mem_of_mem_filter he)
  selected k hk := by
    simp only [Program.removeEvent] at hk
    split at hk
    · cases hk
    · rename_i hs
      refine List.mem_filter.mpr ⟨wf.selected k hk, decide_eq_true fun hkh => hs ?_⟩
      exact hkh ▸ hk

theorem reloaded (wf : p.WellFormed) {events : List Event} (selectFirst : Bool)
    (routines : ∀ event ∈ events, event.routine.WellFormed) :
    (p.reloaded events selectFirst).WellFormed := by
  obtain ⟨events', routines'⟩ := addEvents_induction (P := fun event => event.routine.WellFormed)
    (p := { p with events := p.events.clear }) wf.events.clear (by simp [entries]) routines
  refine ⟨events', routines', ?_⟩
  simp only [Program.reloaded]
  split
  · intro h hh
    exact List.mem_of_getElem? hh
  · simp

theorem setRoutine (wf : p.WellFormed) (h : Handle Event) {routine : Routine}
    (ok : routine.WellFormed) : (p.setRoutine h routine).WellFormed :=
  ⟨wf.events.modify h _, Roster.forall_entries_modify wf.routines fun _ _ => ok, wf.selected⟩

theorem setLock (wf : p.WellFormed) (on : Bool) : (p.setLock on).WellFormed where
  events := wf.events.mapObjects fun e => { e with routine := { e.routine with locked := on } }
  routines := by
    rw [entries, Program.setLock, Roster.entries_mapObjects]
    exact List.forall_mem_map.mpr fun entry he => (wf.routines entry he).lock on
  selected := wf.selected

theorem effect (wf : p.WellFormed) {edit : Edit} {reply : Reply} (effect : Effect p edit reply q) :
    q.WellFormed := by
  cases effect with
  | add kind parameters records routine _ read new =>
    have ok := (Routine.ofRecords_spec read).1
    have added := wf.addEvent (.new kind parameters routine) ok
    rwa [(addEvent_of_new (.new kind parameters routine) new).2] at added
  | delete h => exact wf.removeEvent h
  | deleteSelected h => exact wf.removeEvent h
  | replace h kind parameters event =>
    exact ⟨wf.events.modify h _,
      Roster.forall_entries_modify wf.routines fun x hx => wf.routines (h, x) hx, wf.selected⟩
  | select h known => exact wf.select (wf.events.contains_iff.mp known)
  | selectAt index h found => exact wf.select (List.mem_of_getElem? found)
  | clearSelection => exact ⟨wf.events, wf.routines, by simp⟩
  | load records selectFirst events _ read =>
    exact wf.reloaded selectFirst (forall_of_mapM read fun h => (ofRecord_spec h).1)
  | lock on => exact wf.setLock on
  | inEvent h event found edit reply routine effect =>
    exact wf.setRoutine h ((wf.routine found).effect effect)

theorem apply (wf : p.WellFormed) (edit : Edit) : (p.apply edit).state.WellFormed := by
  rcases p.apply_spec wf.events edit with same | ⟨reply, -, effect⟩
  · rwa [same]
  · exact wf.effect effect

theorem run (wf : p.WellFormed) (edits : List Edit) : (p.run edits).WellFormed := by
  induction edits generalizing p with
  | nil => exact wf
  | cons edit edits ih => exact ih (wf.apply edit)

end WellFormed

/-! ## Locks -/

/-- Every routine is locked when the program is, and unlocked when it is not. -/
def LocksAgree (p : Program) : Prop := ∀ entry ∈ p.entries, entry.2.routine.locked = p.locked

theorem locksAgree_setLock (p : Program) (on : Bool) : (p.setLock on).LocksAgree := by
  rw [LocksAgree, entries, setLock, Roster.entries_mapObjects]
  exact List.forall_mem_map.mpr fun _ _ => rfl

theorem setLock_setLock (p : Program) (a b : Bool) : (p.setLock a).setLock b = p.setLock b := by
  simp [setLock, Roster.mapObjects, Function.comp_def]

theorem setLock_eq_self {p : Program} (wf : p.WellFormed) (agree : p.LocksAgree) :
    p.setLock p.locked = p := by
  have same : ∀ entry ∈ p.events.objects,
      (entry.1, { entry.2 with routine := { entry.2.routine with locked := p.locked } }) =
        entry := by
    intro entry he
    have hl := agree entry (wf.events.mem_entries_iff.mpr (wf.events.find?_of_mem_objects he))
    rw [← hl]
  rw [setLock, Roster.mapObjects, List.map_congr_left same, List.map_id']

theorem Edit.plain_of_setsLock {h : Handle Event} {edit : Routine.Edit}
    (plain : (Edit.inEvent h edit).setsLock = false) : ∀ on, edit ≠ .lock on := by
  rintro on rfl
  cases plain

section Plain

variable {p q : Program} {edit : Edit} {reply : Reply} (plain : edit.setsLock = false)
include plain

/-- Only locking and unlocking can make the locks disagree. -/
theorem LocksAgree.effect (agree : p.LocksAgree) (wf : p.WellFormed)
    (effect : Effect p edit reply q) : q.LocksAgree ∧ q.locked = p.locked := by
  have removed (h : Handle Event) : (p.removeEvent h).LocksAgree := by
    intro entry he
    rw [entries, removeEvent, Roster.entries_remove] at he
    exact agree entry (List.mem_of_mem_filter he)
  cases effect with
  | add kind parameters records routine unlocked read new =>
    refine ⟨fun entry he => ?_, rfl⟩
    rw [entries, Roster.entries_register wf.events, List.mem_append, List.mem_singleton] at he
    rcases he with he | rfl
    · exact agree entry he
    · exact (Routine.ofRecords_spec read).2.1.trans unlocked.symm
  | delete h => exact ⟨removed h, rfl⟩
  | deleteSelected h => exact ⟨removed h, rfl⟩
  | replace h kind parameters event =>
    exact ⟨Roster.forall_entries_modify agree fun x hx => agree (h, x) hx, rfl⟩
  | select h => exact ⟨agree, rfl⟩
  | selectAt index h => exact ⟨agree, rfl⟩
  | clearSelection => exact ⟨agree, rfl⟩
  | load records selectFirst events unlocked read =>
    have all := (addEvents_induction (P := fun event => event.routine.locked = p.locked)
      (p := { p with events := p.events.clear }) wf.events.clear (by simp [entries])
      (forall_of_mapM read fun h => (ofRecord_spec h).2.1.trans unlocked.symm)).2
    have locked : (p.reloaded events selectFirst).locked = p.locked := locked_addEvents _ events
    exact ⟨by rwa [LocksAgree, locked], locked⟩
  | lock on => cases plain
  | inEvent h event found edit reply routine effect =>
    refine ⟨Roster.forall_entries_modify agree fun _ _ => ?_, rfl⟩
    rw [effect.locked_eq (Edit.plain_of_setsLock plain)]
    exact agree (h, event) (wf.events.mem_entries_iff.mpr found)

theorem LocksAgree.apply (agree : p.LocksAgree) (wf : p.WellFormed) :
    (p.apply edit).state.LocksAgree ∧ (p.apply edit).state.locked = p.locked := by
  rcases p.apply_spec wf.events edit with same | ⟨reply, -, effect⟩
  · rw [same]
    exact ⟨agree, rfl⟩
  · exact agree.effect plain wf effect

/-- In a locked program nothing changes but the selection. -/
theorem Effect.of_locked (effect : Effect p edit reply q) (wf : p.WellFormed)
    (agree : p.LocksAgree) (locked : p.locked = true) : q = { p with selected := q.selected } := by
  cases effect with
  | add _ _ _ _ unlocked => simp [unlocked] at locked
  | delete _ _ _ _ unlocked => simp [unlocked] at locked
  | deleteSelected _ _ _ _ unlocked => simp [unlocked] at locked
  | replace _ _ _ _ unlocked => simp [unlocked] at locked
  | select => rfl
  | selectAt => rfl
  | clearSelection => rfl
  | load _ _ _ unlocked => simp [unlocked] at locked
  | lock on => cases plain
  | inEvent h event found edit reply routine effect =>
    have hl : event.routine.locked = true :=
      (agree (h, event) (wf.events.mem_entries_iff.mpr found)).trans locked
    rw [effect.of_locked (Edit.plain_of_setsLock plain) (wf.routine found) hl, setRoutine,
      Roster.modify_eq_self wf.events found rfl]

theorem apply_of_locked (wf : p.WellFormed) (agree : p.LocksAgree) (locked : p.locked = true) :
    (p.apply edit).state = { p with selected := (p.apply edit).state.selected } := by
  rcases p.apply_spec wf.events edit with same | ⟨reply, -, effect⟩
  · rw [same]
  · exact effect.of_locked plain wf agree locked

end Plain

end Program

end RobotProgram
