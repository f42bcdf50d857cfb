import RobotProgram.Proofs.Routine.Invariant

/-!
# Routines and their records

The records of a routine hold all of it but the handles: reading them gives the commands in the same
order, and the forward pass gives them the depths that they had.

## Main definitions

* `Routine.ofCommands`: the routine of commands.
* `Routine.reread`: the routine that the records of a routine are read as.
-/

namespace RobotProgram

/-! ## Reading lists -/

section Lists

variable {ρ α β : Type} {read : ρ → Except Fault β}

theorem mapM_map_eq_ok {write : α → ρ} {f : α → β} {xs : List α}
    (h : ∀ x ∈ xs, read (write x) = .ok (f x)) : (xs.map write).mapM read = .ok (xs.map f) := by
  induction xs with
  | nil => rfl
  | cons x xs ih =>
    obtain ⟨head, tail⟩ := List.forall_mem_cons.mp h
    simp [head, ih tail, pure, Except.pure, bind, Except.bind]

theorem mapM_cons_eq_ok_iff {r : ρ} {rs : List ρ} {ys : List β} :
    (r :: rs).mapM read = .ok ys ↔
      ∃ y zs, read r = .ok y ∧ rs.mapM read = .ok zs ∧ ys = y :: zs := by
  rw [List.mapM_cons]
  cases read r with
  | error e => simp [bind, Except.bind]
  | ok y =>
    cases rs.mapM read with
    | error e => simp [bind, Except.bind]
    | ok zs => simp [bind, Except.bind, pure, Except.pure, eq_comm]

/-- What is read one by one is written as it was. -/
theorem map_of_mapM {write : β → ρ} (h : ∀ {r y}, read r = .ok y → write y = r) {rs : List ρ}
    {ys : List β} (hys : rs.mapM read = .ok ys) : ys.map write = rs := by
  induction rs generalizing ys with
  | nil => cases hys; rfl
  | cons r rs ih =>
    obtain ⟨y, zs, hy, hzs, rfl⟩ := mapM_cons_eq_ok_iff.mp hys
    rw [List.map_cons, h hy, ih hzs]

theorem exists_mapM {records : List ρ} (h : ∀ record ∈ records, ∃ x, read record = .ok x) :
    ∃ xs, records.mapM read = .ok xs := by
  induction records with
  | nil => exact ⟨[], rfl⟩
  | cons record rest ih =>
    obtain ⟨⟨x, hx⟩, hrest⟩ := List.forall_mem_cons.mp h
    obtain ⟨xs, hxs⟩ := ih hrest
    exact ⟨x :: xs, mapM_cons_eq_ok_iff.mpr ⟨x, xs, hx, hxs, rfl⟩⟩

end Lists

/-! ## Commands -/

namespace Command

/-- A command is read back without its depth. -/
theorem ofRecord_toRecord (c : Command) : ofRecord c.toRecord = .ok { c with indent := 0 } := by
  simp [ofRecord, toRecord, CommandKind.ofGui?_gui]

theorem toRecord_of_ofRecord {record : CommandRecord} {c : Command} (h : ofRecord record = .ok c) :
    c.toRecord = record := by
  unfold ofRecord at h
  split at h
  · rename_i kind hkind
    cases h
    simp [toRecord, CommandKind.gui_of_ofGui? hkind]
  · cases h

end Command

/-! ## Routines -/

namespace Routine

/-- The unlocked routine of commands, which get the handles from one on. -/
def ofCommands (commands : List Command) : Routine :=
  reindent ⟨commands.foldl .register (.empty "command"), false⟩

theorem ofRecords_eq (records : List CommandRecord) :
    ofRecords records = (records.mapM Command.ofRecord).map ofCommands := by
  unfold ofRecords load
  cases records.mapM Command.ofRecord <;> rfl

section OfCommands

variable (commands : List Command)

theorem wellFormed_ofCommands : (ofCommands commands).WellFormed :=
  wellFormed_reindent (Roster.registerAll_spec (Roster.wellFormed_empty _) commands).1

theorem map_entries_ofCommands {τ : Type} {f : Command → τ}
    (blind : ∀ c indent, f { c with indent } = f c) :
    (ofCommands commands).entries.map (f ·.2) = commands.map f := by
  obtain ⟨wf, he, -⟩ := Roster.registerAll_spec (Roster.wellFormed_empty "command") commands
  rw [ofCommands, map_entries_reindent (f := (f ·.2)) wf fun _ c => blind c, entries, he,
    Roster.entries, Roster.empty, List.filterMap_nil, List.nil_append]
  exact (List.map_map ..).symm.trans (congrArg _ (Roster.map_snd_numbered 1 commands))

theorem save_ofCommands : (ofCommands commands).save = commands.map Command.toRecord :=
  map_entries_ofCommands commands fun _ _ => rfl

theorem indents_ofCommands :
    (ofCommands commands).indents = depths 0 (commands.map (·.kind.bracket)) := by
  rw [(wellFormed_ofCommands commands).indents, brackets]
  exact congrArg _ (map_entries_ofCommands (f := (·.kind.bracket)) commands fun _ _ => rfl)

end OfCommands

/-- What is read of records is well formed and unlocked, and is saved as the records. -/
theorem ofRecords_spec {records : List CommandRecord} {r : Routine}
    (h : ofRecords records = .ok r) : r.WellFormed ∧ r.locked = false ∧ r.save = records := by
  rw [ofRecords_eq] at h
  cases hc : records.mapM Command.ofRecord with
  | error e => rw [hc] at h; cases h
  | ok commands =>
    rw [hc] at h
    cases h
    refine ⟨wellFormed_ofCommands commands, rfl, ?_⟩
    rw [save_ofCommands, map_of_mapM Command.toRecord_of_ofRecord hc]

/-- The routine that the records of a routine are read as. -/
def reread (r : Routine) : Routine := ofCommands (r.entries.map fun e => { e.2 with indent := 0 })

theorem ofRecords_save (r : Routine) : ofRecords r.save = .ok r.reread := by
  have h : ((r.entries.map Prod.snd).map Command.toRecord).mapM Command.ofRecord = _ :=
    mapM_map_eq_ok fun c _ => Command.ofRecord_toRecord c
  rw [List.map_map, List.map_map] at h
  rw [ofRecords_eq, save]
  exact congrArg (Except.map ofCommands) h

@[simp] theorem save_reread (r : Routine) : r.reread.save = r.save := by
  rw [reread, save_ofCommands, List.map_map]
  rfl

theorem indents_reread {r : Routine} (wf : r.WellFormed) : r.reread.indents = r.indents := by
  rw [reread, indents_ofCommands, wf.indents, List.map_map]
  rfl

end Routine

end RobotProgram
