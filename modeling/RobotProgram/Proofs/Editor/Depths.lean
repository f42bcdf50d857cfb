import RobotProgram.Proofs.Editor.Modes

/-!
# Depths of every routine

However a routine came about, on its own, among the events of a program or in an editor, each of its
commands carries the depth that a forward pass over the kinds gives to its place, so that another
pass finds nothing to do.

## Main definitions

* `Routine.kinds`: the kinds of the commands, in order.
* `Routine.pass`: the forward pass over kinds.
* `Routine.Reachable`: the routines that can come about.
-/

namespace RobotProgram.Routine

/-- The kinds of the commands, in order. -/
def kinds (r : Routine) : List CommandKind := r.entries.map (·.2.kind)

/--
The depths of commands of some kinds: the end of a block goes out before it is placed, but never
further than to zero, and the start of one goes in after it is placed.
-/
def pass : Nat → List CommandKind → List Nat
  | _, [] => []
  | depth, .endBlock :: rest => (depth - 1) :: pass (depth - 1) rest
  | depth, .startBlock :: rest => depth :: pass (depth + 1) rest
  | depth, _ :: rest => depth :: pass depth rest

theorem depths_map_bracket (depth : Nat) (kinds : List CommandKind) :
    depths depth (kinds.map (·.bracket)) = pass depth kinds := by
  induction kinds generalizing depth with
  | nil => rfl
  | cons kind rest ih => cases kind <;> exact congrArg (_ :: ·) (ih _)

theorem WellFormed.indents_eq_pass {r : Routine} (wf : r.WellFormed) :
    r.indents = pass 0 r.kinds := by
  rw [wf.indents, ← depths_map_bracket, brackets, kinds, List.map_map]
  rfl

/-- The routines that can come about. -/
inductive Reachable : Routine → Prop where
  | empty : Reachable empty
  | ofRecords (records : List CommandRecord) (r : Routine) (read : ofRecords records = .ok r) :
      Reachable r
  | apply (r : Routine) (edit : Edit) (reached : Reachable r) : Reachable (r.apply edit).state
  | inProgram (edits : List Program.Edit) (entry : Handle Event × Event)
      (mem : entry ∈ (Program.empty.run edits).entries) : Reachable entry.2.routine
  | inEditor {ι : Type} [StatusSource ι] (settings : EngineSettings) (interpreter : ι)
      (steps : List (Editor.Step ι)) (entry : Handle Event × Event)
      (mem : entry ∈ ((Editor.new settings interpreter).run steps).program.entries) :
      Reachable entry.2.routine

namespace Reachable

variable {r : Routine}

theorem run (reached : r.Reachable) (edits : List Edit) : (r.run edits).Reachable := by
  induction edits generalizing r with
  | nil => exact reached
  | cons edit edits ih => exact ih (reached.apply r edit)

theorem wellFormed (reached : r.Reachable) : r.WellFormed := by
  induction reached with
  | empty => exact wellFormed_empty
  | ofRecords records r read => exact (ofRecords_spec read).1
  | apply r edit _ ih => exact ih.apply edit
  | inProgram edits entry mem => exact (Program.wellFormed_empty.run edits).routines entry mem
  | inEditor settings interpreter steps entry mem =>
    have coherent := Editor.coherent_new settings interpreter
    exact (coherent.run Program.wellFormed_empty steps).1.routines entry mem

/-- Every command carries the depth of its place, and the forward pass has nothing to do. -/
theorem indents_eq_pass_and_reindent_eq (reached : r.Reachable) :
    r.indents = pass 0 r.kinds ∧ r.reindent = r :=
  ⟨reached.wellFormed.indents_eq_pass, reached.wellFormed.reindent_eq_self⟩

end Reachable

/-- Leaves a block that ends before it starts, and one that does not end. -/
def tangling : List Edit :=
  [.add .startBlock none, .add .wait none, .add .endBlock none, .insert .startBlock none 1,
    .move ⟨3⟩ 0, .update ⟨2⟩ (some (.ofMembers [])), .lock true, .delete [⟨1⟩]]

theorem indents_tangling :
    (empty.run tangling).Reachable ∧ (empty.run tangling).indents = [0, 0, 1, 2] ∧
      (empty.run tangling).indents = pass 0 (empty.run tangling).kinds ∧
      (empty.run tangling).reindent = empty.run tangling := by
  have reached : (empty.run tangling).Reachable := Reachable.empty.run tangling
  exact ⟨reached, by decide, reached.indents_eq_pass_and_reindent_eq⟩

end RobotProgram.Routine
