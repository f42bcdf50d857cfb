import RobotProgram.Proofs.Editor.Depths
import RobotProgram.Proofs.Program.UnknownKinds

/-!
# Routines and lists of records

Every list of records of known kinds is what some routine is saved as, and every routine that can
come about is read back from its records with the same commands at the same depths: a record holds
all of a command but its depth, and the depth is that of the place. So two routines have the same
records only if they have the same commands. The handles are not held, and so neither is the order
in which the commands were made.

## Main definitions

* `Routine.contents`: the commands in order, without their handles.
-/

namespace RobotProgram

/-- A record holds all of a command but its depth. -/
theorem Command.toRecord_indent_injective :
    Function.Injective fun c : Command => (c.toRecord, c.indent) := by
  intro c d same
  obtain ⟨records, indents⟩ := Prod.mk.inj same
  have read := ofRecord_toRecord c
  rw [records, ofRecord_toRecord d] at read
  injection read with stripped
  calc c = { { c with indent := 0 } with indent := c.indent } := rfl
    _ = { { d with indent := 0 } with indent := d.indent } := by rw [stripped, indents]
    _ = d := rfl

namespace Routine

variable {r q : Routine}

/-- The commands in order, without their handles. -/
def contents (r : Routine) : List Command := r.entries.map Prod.snd

theorem save_eq_map_contents (r : Routine) : r.save = r.contents.map Command.toRecord := by
  rw [contents, List.map_map]
  rfl

theorem indents_eq_map_contents (r : Routine) : r.indents = r.contents.map Command.indent := by
  rw [contents, List.map_map]
  rfl

theorem contents_eq_of_save_eq (records : q.save = r.save) (indents : q.indents = r.indents) :
    q.contents = r.contents := by
  rw [save_eq_map_contents, save_eq_map_contents] at records
  rw [indents_eq_map_contents, indents_eq_map_contents] at indents
  refine Command.toRecord_indent_injective.list_map ?_
  rw [← List.zip_map', ← List.zip_map', records, indents]

theorem WellFormed.contents_reread (wf : r.WellFormed) : r.reread.contents = r.contents :=
  contents_eq_of_save_eq (save_reread r) (indents_reread wf)

/-- Well-formed routines have the same records only if they have the same commands. -/
theorem WellFormed.save_eq_iff (wfq : q.WellFormed) (wfr : r.WellFormed) :
    q.save = r.save ↔ q.contents = r.contents := by
  constructor
  · intro records
    have read := ofRecords_save q
    rw [records, ofRecords_save r] at read
    injection read with reread
    rw [← wfq.contents_reread, ← wfr.contents_reread, reread]
  · intro contents
    rw [save_eq_map_contents, save_eq_map_contents, contents]

theorem exists_ofRecords {records : List CommandRecord}
    (known : ∀ record ∈ records, record.kindName.Known) : ∃ r, ofRecords records = .ok r := by
  cases read : ofRecords records with
  | ok r => exact ⟨r, rfl⟩
  | error fault =>
    have fails := FailsOver.of_failure (failure?_ofRecords records)
    obtain ⟨name, named, unknown⟩ := fails.fails_iff.mp ⟨fault, read⟩
    obtain ⟨record, mem, rfl⟩ := List.mem_map.mp named
    exact absurd (known record mem) unknown

/--
Known records are read as a routine that is saved as they are; a routine that can come about is read
back from its records with the same records, depths and commands; and its records tell its commands.
-/
theorem records_correspond :
    (∀ records : List CommandRecord, (∀ record ∈ records, record.kindName.Known) →
      ∃ r, ofRecords records = .ok r ∧ r.save = records) ∧
    (∀ r : Routine, r.Reachable → ∃ q, ofRecords r.save = .ok q ∧ q.save = r.save ∧
      q.indents = r.indents ∧ q.contents = r.contents) ∧
    ∀ q r : Routine, q.Reachable → r.Reachable → (q.save = r.save ↔ q.contents = r.contents) := by
  refine ⟨fun records known => ?_, fun r reached => ?_, fun q r reachedq reached => ?_⟩
  · obtain ⟨r, read⟩ := exists_ofRecords known
    exact ⟨r, read, (ofRecords_spec read).2.2⟩
  · have wf := reached.wellFormed
    exact ⟨r.reread, ofRecords_save r, save_reread r, indents_reread wf, wf.contents_reread⟩
  · exact reachedq.wellFormed.save_eq_iff reached.wellFormed

/-- Commands with no parameters, with empty ones and with some, performed by classes of their own. -/
def bespoke : List CommandRecord :=
  [⟨"StartBlockCommandGUI", "StartBlockCommand", none⟩, ⟨"WaitCommandGUI", "Nap", none⟩,
    ⟨"WaitCommandGUI", "WaitCommand", some (.ofMembers [])⟩,
    ⟨"EndBlockCommandGUI", "Fence", none⟩,
    ⟨"SpeedCommandGUI", "SpeedCommand", some (.ofMembers [("speed", .string "fast")])⟩]

/-- The commands that are loaded are put in another order and some of them are taken away. -/
def shuffling : List Edit :=
  [.add .tone none, .load bespoke, .insert .startBlock none 2, .move ⟨6⟩ 0, .delete [⟨5⟩],
    .update ⟨3⟩ (some (.ofMembers [])), .lock true, .add .wait none]

theorem records_correspond_shuffling :
    (∃ r, ofRecords bespoke = .ok r ∧ r.save = bespoke) ∧
      (empty.run shuffling).Reachable ∧
      (empty.run shuffling).commands.order = [⟨6⟩, ⟨2⟩, ⟨3⟩, ⟨7⟩, ⟨4⟩] ∧
      (empty.run shuffling).indents = [0, 0, 1, 1, 2] ∧
      ∃ q, ofRecords (empty.run shuffling).save = .ok q ∧ q.save = (empty.run shuffling).save ∧
        q.indents = (empty.run shuffling).indents ∧
        q.contents = (empty.run shuffling).contents := by
  have reached : (empty.run shuffling).Reachable := Reachable.empty.run shuffling
  obtain ⟨decoded, encoded, -⟩ := records_correspond
  exact ⟨decoded bespoke (by decide), reached, by decide, by decide, encoded _ reached⟩

end Routine

end RobotProgram
