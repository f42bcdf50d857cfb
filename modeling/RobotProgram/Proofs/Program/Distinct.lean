import RobotProgram.Proofs.Json.Same
import RobotProgram.Proofs.Program.Invariant

/-!
# No event twice

Whatever is done to a program, no two of its events have one kind and equal parameters, where absent
parameters equal absent ones. Adding and loading look at all events and replacing at all others, so
a new event is like none that is there.

## Main definitions

* `Event.Alike`: one kind and equal parameters.
* `Program.Distinct`: no two events are alike.
* `Program.wildcards`: the events of a kind without parameters.
-/

namespace RobotProgram

namespace Event

/-- Two events of one kind with parameters that are equal by value, or both absent. -/
def Alike (a b : Event) : Prop := a.kind = b.kind ∧ sameParameters a.parameters b.parameters = true

theorem Alike.symm {a b : Event} (h : Alike a b) : Alike b a :=
  ⟨h.1.symm, by rw [sameParameters_comm]; exact h.2⟩

theorem Alike.conflicts {a b : Event} (h : Alike a b) : a.conflicts b.kind b.parameters = true := by
  simp [Event.conflicts, h.1, h.2]

end Event

namespace Program

/-- No two events are alike. -/
def Distinct (p : Program) : Prop :=
  ∀ a ∈ p.entries, ∀ b ∈ p.entries, a.1 ≠ b.1 → ¬ a.2.Alike b.2

/-- The events of a kind that have no parameters. -/
def wildcards (p : Program) (kind : EventKind) : List (Handle Event × Event) :=
  p.entries.filter fun a => a.2.kind == kind && a.2.parameters.isNone

theorem mem_wildcards {p : Program} {kind : EventKind} {a : Handle Event × Event} :
    a ∈ p.wildcards kind ↔ a ∈ p.entries ∧ a.2.kind = kind ∧ a.2.parameters = none := by
  simp [wildcards]

theorem distinct_of_entries_eq_nil {p : Program} (none : p.entries = []) : p.Distinct := by
  simp [Distinct, none]

namespace Distinct

variable {p q : Program}

/-- Events that keep their handles, kinds and parameters stay distinct, also if some are gone. -/
theorem of_same (distinct : p.Distinct)
    (same : ∀ entry ∈ q.entries, ∃ old ∈ p.entries, old.1 = entry.1 ∧
      old.2.kind = entry.2.kind ∧ old.2.parameters = entry.2.parameters) : q.Distinct := by
  intro a ha b hb hab alike
  obtain ⟨a', ha', hah, hak, hap⟩ := same a ha
  obtain ⟨b', hb', hbh, hbk, hbp⟩ := same b hb
  refine distinct a' ha' b' hb' (by rwa [hah, hbh]) ⟨?_, ?_⟩
  · rw [hak, hbk, alike.1]
  · rw [hap, hbp, alike.2]

/-- An event that is like none of the others may stand under a handle. -/
theorem of_new (distinct : p.Distinct) {h : Handle Event}
    (new : ∀ a ∈ q.entries, a.1 = h → ∀ b ∈ q.entries, b.1 ≠ h → ¬ b.2.Alike a.2)
    (old : ∀ a ∈ q.entries, a.1 ≠ h → a ∈ p.entries) : q.Distinct := by
  intro a ha b hb hab alike
  by_cases hah : a.1 = h
  · exact new a ha hah b hb (fun hbh => hab (hah.trans hbh.symm)) alike.symm
  by_cases hbh : b.1 = h
  · exact new b hb hbh a ha hah alike
  · exact distinct a (old a ha hah) b (old b hb hbh) hab alike

theorem addEvent (distinct : p.Distinct) (wf : p.events.WellFormed) (event : Event) :
    (p.addEvent event).state.Distinct := by
  cases hd : p.duplicate? event.kind event.parameters none with
  | some h => rw [addEvent_of_duplicate event hd]; exact distinct
  | none =>
    rw [(addEvent_of_new event hd).2]
    have split {a : Handle Event × Event} (ha : a ∈ (p.events.register event).entries) :
        a ∈ p.entries ∨ a = (p.events.nextHandle, event) := by
      rwa [Roster.entries_register wf, List.mem_append, List.mem_singleton] at ha
    refine distinct.of_new (h := p.events.nextHandle) ?_ ?_
    · intro a ha hah b hb hbh alike
      have hb' : b ∈ p.entries := (split hb).resolve_right fun he => hbh (by rw [he])
      have free := duplicate?_eq_none_iff.mp hd b hb' (by simp)
      rcases split ha with ha | rfl
      · exact wf.nextHandle_notMem (hah ▸ (Roster.mem_entries.mp ha).1)
      · simp [alike.conflicts] at free
    · exact fun a ha hah => (split ha).resolve_right fun he => hah (by rw [he])

theorem addEvents (distinct : p.Distinct) (wf : p.events.WellFormed) (events : List Event) :
    (p.addEvents events).Distinct := by
  induction events generalizing p with
  | nil => exact distinct
  | cons event rest ih =>
    exact ih (distinct.addEvent wf event) (wellFormed_events_addEvent wf event)

/-- The check looks past the event itself, which is not there any more afterwards. -/
theorem replace (distinct : p.Distinct) {h : Handle Event} {kind : EventKind}
    {parameters : Parameters} (new : p.duplicate? kind parameters (some h) = none) :
    Distinct { p with events := p.events.modify h fun e => .new kind parameters e.routine } := by
  have split {a : Handle Event × Event}
      (ha : a ∈ (p.events.modify h fun e => .new kind parameters e.routine).entries) :
      (a.1 ≠ h ∧ a ∈ p.entries) ∨
        (a.1 = h ∧ a.2.kind = kind ∧ a.2.parameters = parameters) := by
    rw [Roster.entries_modify] at ha
    obtain ⟨b, hb, rfl⟩ := List.mem_map.mp ha
    by_cases hbh : b.1 = h
    · simp [hbh, Event.new]
    · simp [hbh, show b ∈ p.entries from hb]
  refine distinct.of_new (h := h) ?_ ?_
  · intro a ha hah b hb hbh alike
    obtain ⟨-, hk, hp⟩ := (split ha).resolve_left fun hs => hs.1 hah
    have hb' := ((split hb).resolve_right fun hs => hbh hs.1).2
    have free := duplicate?_eq_none_iff.mp new b hb' (by simpa using hbh)
    have clash := alike.conflicts
    rw [hk, hp, free] at clash
    cases clash
  · exact fun a ha hah => ((split ha).resolve_right fun hs => hah hs.1).2

theorem setRoutine (distinct : p.Distinct) (h : Handle Event) (routine : Routine) :
    (p.setRoutine h routine).Distinct := by
  refine distinct.of_same ?_
  refine Roster.forall_entries_modify (fun a ha => ⟨a, ha, rfl, rfl, rfl⟩) fun event he => ?_
  exact ⟨(h, event), he, rfl, rfl, rfl⟩

theorem setLock (distinct : p.Distinct) (on : Bool) : (p.setLock on).Distinct := by
  refine distinct.of_same ?_
  rw [entries, Program.setLock, Roster.entries_mapObjects]
  exact List.forall_mem_map.mpr fun a ha => ⟨a, ha, rfl, rfl, rfl⟩

theorem removeEvent (distinct : p.Distinct) (h : Handle Event) : (p.removeEvent h).Distinct := by
  refine distinct.of_same fun a ha => ⟨a, ?_, rfl, rfl, rfl⟩
  rw [entries, Program.removeEvent, Roster.entries_remove] at ha
  exact List.mem_of_mem_filter ha

theorem effect (distinct : p.Distinct) (wf : p.WellFormed) {edit : Edit} {reply : Reply}
    (effect : Effect p edit reply q) : q.Distinct := by
  cases effect with
  | add kind parameters records routine _ _ new =>
    have added := distinct.addEvent wf.events (.new kind parameters routine)
    rwa [(addEvent_of_new (.new kind parameters routine) new).2] at added
  | delete h => exact distinct.removeEvent h
  | deleteSelected h => exact distinct.removeEvent h
  | replace h kind parameters event _ _ new => exact distinct.replace new
  | select h => exact distinct
  | selectAt index h => exact distinct
  | clearSelection => exact distinct
  | load records selectFirst events =>
    exact addEvents (p := { p with events := p.events.clear }) (distinct_of_entries_eq_nil rfl)
      wf.events.clear events
  | lock on => exact distinct.setLock on
  | inEvent h event _ edit reply routine => exact distinct.setRoutine h routine

theorem apply (distinct : p.Distinct) (wf : p.WellFormed) (edit : Edit) :
    (p.apply edit).state.Distinct := by
  rcases p.apply_spec wf.events edit with same | ⟨reply, -, effect⟩
  · rwa [same]
  · exact distinct.effect wf effect

theorem run (distinct : p.Distinct) (wf : p.WellFormed) (edits : List Edit) :
    (p.run edits).Distinct := by
  induction edits generalizing p with
  | nil => exact distinct
  | cons edit edits ih => exact ih (distinct.apply wf edit) (wf.apply edit)

theorem pairwise (distinct : p.Distinct) (wf : p.events.WellFormed) :
    p.entries.Pairwise fun a b => ¬ a.2.Alike b.2 :=
  (List.pairwise_map.mp wf.nodup_entries).imp_of_mem fun ha hb hab => distinct _ ha _ hb hab

/-- Of one kind there is at most one event without parameters. -/
theorem length_wildcards_le_one (distinct : p.Distinct) (wf : p.events.WellFormed)
    (kind : EventKind) : (p.wildcards kind).length ≤ 1 := by
  have apart : (p.wildcards kind).Pairwise fun a b => ¬ a.2.Alike b.2 :=
    (distinct.pairwise wf).filter _
  match h : p.wildcards kind with
  | [] | [_] => simp
  | a :: b :: rest =>
    rw [h] at apart
    obtain ⟨-, hak, hap⟩ := mem_wildcards.mp (h ▸ List.mem_cons_self : a ∈ p.wildcards kind)
    obtain ⟨-, hbk, hbp⟩ := mem_wildcards.mp (h ▸ by simp : b ∈ p.wildcards kind)
    have alike : a.2.Alike b.2 := ⟨hak.trans hbk.symm, by simp [hap, hbp]⟩
    exact absurd alike (List.rel_of_pairwise_cons apart List.mem_cons_self)

end Distinct

/-- However a program came about, no two of its events are alike, nor two of one kind wildcards. -/
theorem distinct_run_empty (edits : List Edit) :
    (empty.run edits).Distinct ∧ ∀ kind, ((empty.run edits).wildcards kind).length ≤ 1 := by
  have distinct : (empty.run edits).Distinct :=
    (distinct_of_entries_eq_nil rfl).run wellFormed_empty edits
  have wf := wellFormed_empty.run edits
  exact ⟨distinct, distinct.length_wildcards_le_one wf.events⟩

end Program

end RobotProgram
