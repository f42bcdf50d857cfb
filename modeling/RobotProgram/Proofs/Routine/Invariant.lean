import RobotProgram.Proofs.Roster.Entries
import RobotProgram.Routine

/-!
# Well-formed routines

In a well-formed routine the stored depths are those that one forward pass computes. What an
operation can do is said once, by `Effect`; that every operation keeps routines well formed, and
leaves locked ones alone, is read off it. An operation that is not carried out is rejected: by a
fault, by a reply that tells of a refusal, or without a word, as a load is that is passed over while
a script runs.

## Main definitions

* `Routine.brackets`: the parts that the commands play in the nesting of blocks.
* `Routine.flat`: the commands without their depths.
* `Routine.WellFormed`: the invariant, kept by `WellFormed.apply` and `WellFormed.run`.
* `refused`: whether an answer is a fault or tells of a refusal.
* `Routine.rejects`: whether an operation is rejected.
* `Routine.Effect`: what an operation that is carried out answers and does.
-/

namespace RobotProgram

/-- Whether an answer is a fault, or a reply that tells of a refusal. -/
def refused {ρ : Type} (rejects : ρ → Bool) : Except Fault ρ → Bool
  | .ok reply => rejects reply
  | .error _ => true

theorem refused_map {ρ τ : Type} (rejects : τ → Bool) (f : ρ → τ) (answer : Except Fault ρ) :
    refused rejects (answer.map f) = refused (fun reply => rejects (f reply)) answer := by
  cases answer <;> rfl

namespace Routine

open Roster (sweep)

/-- The brackets of the commands, in order. -/
def brackets (r : Routine) : List Bracket := r.entries.map (·.2.kind.bracket)

/-- The commands in order, without their depths. -/
def flat (r : Routine) : List (Handle Command × Command) :=
  r.entries.map fun entry => (entry.1, { entry.2 with indent := 0 })

/-- The commands are in order, and each carries the depth at which it stands. -/
structure WellFormed (r : Routine) : Prop where
  commands : r.commands.WellFormed
  indents : r.indents = depths 0 r.brackets

theorem wellFormed_empty : empty.WellFormed := ⟨Roster.wellFormed_empty _, rfl⟩

/-! ## The forward pass -/

/-- The step of the forward pass, which stores the depth of a command. -/
def indentStep (depth : Nat) (c : Command) : Nat × Command :=
  (depthAfter depth c.kind.bracket, { c with indent := depthOf depth c.kind.bracket })

theorem reindent_eq (r : Routine) :
    r.reindent = { r with commands := r.commands.visit indentStep 0 } := rfl

theorem entries_reindent {r : Routine} (wf : r.commands.WellFormed) :
    r.reindent.entries = sweep indentStep 0 r.entries :=
  Roster.entries_visit wf indentStep 0

theorem map_indent_sweep (depth : Nat) (entries : List (Handle Command × Command)) :
    (sweep indentStep depth entries).map (·.2.indent) =
      depths depth (entries.map (·.2.kind.bracket)) := by
  induction entries generalizing depth with
  | nil => rfl
  | cons entry rest ih => simp [sweep, indentStep, depths, ih]

/-- The pass changes nothing of a command but its depth. -/
theorem map_sweep {τ : Type} {f : Handle Command × Command → τ}
    (blind : ∀ h c indent, f (h, { c with indent }) = f (h, c)) (depth : Nat)
    (entries : List (Handle Command × Command)) :
    (sweep indentStep depth entries).map f = entries.map f := by
  induction entries generalizing depth with
  | nil => rfl
  | cons entry rest ih => simp [sweep, indentStep, blind, ih]

theorem map_entries_reindent {τ : Type} {r : Routine} (wf : r.commands.WellFormed)
    {f : Handle Command × Command → τ}
    (blind : ∀ h c indent, f (h, { c with indent }) = f (h, c)) :
    r.reindent.entries.map f = r.entries.map f := by
  rw [entries_reindent wf, map_sweep blind]

theorem brackets_reindent {r : Routine} (wf : r.commands.WellFormed) :
    r.reindent.brackets = r.brackets :=
  map_entries_reindent wf fun _ _ _ => rfl

theorem flat_reindent {r : Routine} (wf : r.commands.WellFormed) : r.reindent.flat = r.flat :=
  map_entries_reindent wf fun _ _ _ => rfl

theorem indents_reindent {r : Routine} (wf : r.commands.WellFormed) :
    r.reindent.indents = depths 0 r.brackets := by
  rw [indents, entries_reindent wf, map_indent_sweep, brackets]

theorem wellFormed_reindent {r : Routine} (wf : r.commands.WellFormed) : r.reindent.WellFormed :=
  ⟨wf.visit _ _, by rw [indents_reindent wf, brackets_reindent wf]⟩

theorem sweep_eq_self {depth : Nat} {entries : List (Handle Command × Command)}
    (same : entries.map (·.2.indent) = depths depth (entries.map (·.2.kind.bracket))) :
    sweep indentStep depth entries = entries := by
  induction entries generalizing depth with
  | nil => rfl
  | cons entry rest ih =>
    simp only [List.map_cons, depths, List.cons.injEq] at same
    simp only [sweep, indentStep, ← same.1]
    rw [ih same.2]

/-- The pass has nothing to do where the depths are right. -/
theorem WellFormed.reindent_eq_self {r : Routine} (wf : r.WellFormed) : r.reindent = r := by
  rw [reindent_eq, Roster.visit_eq_self wf.commands (sweep_eq_self wf.indents)]

/-! ## Operations -/

def Reply.rejects : Reply → Bool
  | .added h => h.isNone
  | .deleted count => count == 0
  | .changed made => !made
  | .done => false

/-- Loading is passed over while the routine is locked, and answered as if it had been done. -/
def ignores (r : Routine) : Edit → Bool
  | .load _ => r.locked
  | _ => false

def rejects (r : Routine) (edit : Edit) : Bool :=
  refused Reply.rejects (r.apply edit).answer || r.ignores edit

/-- What an operation that is carried out answers, and what it makes of a routine. -/
inductive Effect (r : Routine) : Edit → Reply → Routine → Prop where
  | add (kind : CommandKind) (parameters : Parameters) (unlocked : r.locked = false) :
      Effect r (.add kind parameters) (.added (some r.commands.nextHandle))
        (Routine.reindent { r with
          commands := r.commands.registerAt r.length (.new kind parameters) })
  | insert (kind : CommandKind) (parameters : Parameters) (index : Nat)
      (unlocked : r.locked = false) :
      Effect r (.insert kind parameters index) (.added (some r.commands.nextHandle))
        (Routine.reindent { r with commands := r.commands.registerAt index (.new kind parameters) })
  | delete (handles : List (Handle Command)) (unlocked : r.locked = false)
      (some : handles.eraseDups ≠ []) (known : ∀ h ∈ handles, r.commands.contains h = true) :
      Effect r (.delete handles) (.deleted handles.eraseDups.length)
        (Routine.reindent { r with commands := handles.eraseDups.foldl .remove r.commands })
  | move (h : Handle Command) (index : Nat) (unlocked : r.locked = false)
      (known : r.commands.contains h = true) :
      Effect r (.move h index) (.changed true)
        (Routine.reindent { r with commands := r.commands.moveTo h index })
  | update (h : Handle Command) (parameters : Parameters) (unlocked : r.locked = false)
      (known : r.commands.contains h = true) :
      Effect r (.update h parameters) (.changed true)
        { r with commands := r.commands.modify h fun c => { c with parameters } }
  | reindent : Effect r .reindent .done r.reindent
  | load (records : List CommandRecord) (commands : List Command) (unlocked : r.locked = false)
      (read : records.mapM Command.ofRecord = .ok commands) :
      Effect r (.load records) .done
        (Routine.reindent { r with commands := commands.foldl .register r.commands.clear })
  | lock (on : Bool) : Effect r (.lock on) .done { r with locked := on }

section Effect

variable (r : Routine)

theorem withCommand_spec (h : Handle Command) (operation : String) (change : Routine) :
    (r.withCommand h operation change).state = r ∧
        refused (!·) (r.withCommand h operation change).answer = true ∨
      (r.locked = false ∧ r.commands.contains h = true) ∧
        (r.withCommand h operation change).answer = .ok true ∧
        (r.withCommand h operation change).state = change := by
  unfold withCommand
  split
  · exact .inl ⟨rfl, rfl⟩
  split
  · exact .inl ⟨rfl, rfl⟩
  · rename_i known unlocked
    exact .inr ⟨⟨eq_false_of_ne_true unlocked, by simpa using known⟩, rfl, rfl⟩

theorem eraseDups_eq_nil_iff {α : Type} [DecidableEq α] {xs : List α} :
    xs.eraseDups = [] ↔ xs = [] := by
  simp only [List.eq_nil_iff_forall_not_mem, List.mem_eraseDups]

/-- A deletion finds nothing to do, or a handle that is not registered, or takes all of them away. -/
theorem delete_cases (r : Routine) (handles : List (Handle Command)) :
    ((r.locked = true ∨ handles = []) ∧
        (r.delete handles).answer = .ok 0 ∧ (r.delete handles).state = r) ∨
      (∃ h, h ∈ handles ∧ r.locked = false ∧ r.commands.contains h = false ∧
        (r.delete handles).answer = .error (r.commands.fault h) ∧ (r.delete handles).state = r) ∨
      r.locked = false ∧ handles ≠ [] ∧ (∀ h ∈ handles, r.commands.contains h = true) ∧
        (r.delete handles).answer = .ok handles.eraseDups.length ∧
        (r.delete handles).state =
          Routine.reindent { r with commands := handles.eraseDups.foldl .remove r.commands } := by
  unfold delete
  dsimp only
  split
  · rename_i none
    exact .inl ⟨.inr (eraseDups_eq_nil_iff.mp (List.isEmpty_iff.mp none)), rfl, rfl⟩
  split
  · rename_i locked
    exact .inl ⟨.inl locked, rfl, rfl⟩
  rename_i some unlocked
  replace unlocked := eq_false_of_ne_true unlocked
  split
  · rename_i h found
    refine .inr (.inl ⟨h, List.mem_eraseDups.mp (List.mem_of_find?_eq_some found), unlocked, ?_,
      rfl, rfl⟩)
    simpa using List.find?_some found
  · rename_i known
    refine .inr (.inr ⟨unlocked, ?_, fun h mem => ?_, rfl, rfl⟩)
    · simpa [List.isEmpty_iff, eraseDups_eq_nil_iff] using some
    · simpa using List.find?_eq_none.mp known h (List.mem_eraseDups.mpr mem)

theorem delete_spec (handles : List (Handle Command)) :
    (r.delete handles).state = r ∧ refused (· == 0) (r.delete handles).answer = true ∨
      ∃ count, (r.delete handles).answer = .ok count ∧
        Effect r (.delete handles) (.deleted count) (r.delete handles).state := by
  rcases r.delete_cases handles with
    ⟨-, answer, state⟩ | ⟨_, -, -, -, answer, state⟩ | ⟨unlocked, some, known, answer, state⟩
  · exact .inl ⟨state, by rw [answer]; rfl⟩
  · exact .inl ⟨state, by rw [answer]; rfl⟩
  · exact .inr ⟨_, answer,
      state ▸ .delete handles unlocked (mt eraseDups_eq_nil_iff.mp some) known⟩

theorem load_spec (records : List CommandRecord) :
    (r.load records).state = r ∧ r.rejects (.load records) = true ∨
      (r.load records).answer = .ok () ∧
        Effect r (.load records) .done (r.load records).state := by
  rw [rejects, apply, Outcome.answer_map, refused_map]
  unfold load
  split
  · exact .inl ⟨rfl, rfl⟩
  · rename_i commands read
    rw [Outcome.state_after, Outcome.answer_after]
    split
    · rename_i locked
      exact .inl ⟨rfl, locked⟩
    · exact .inr ⟨rfl, .load records commands (eq_false_of_ne_true ‹_›) read⟩

/-- An operation is rejected and changes nothing, or it is carried out. -/
theorem rejects_or_effect (edit : Edit) :
    (r.apply edit).state = r ∧ r.rejects edit = true ∨
      ∃ reply, (r.apply edit).answer = .ok reply ∧ Effect r edit reply (r.apply edit).state := by
  have refusal {edit : Edit} (rejected : refused Reply.rejects (r.apply edit).answer = true) :
      r.rejects edit = true := Bool.or_eq_true_iff.mpr (.inl rejected)
  cases edit with
  | add kind parameters =>
    rw [rejects]
    simp only [apply, add, insert, Outcome.state_map, Outcome.answer_map]
    split
    · exact .inl ⟨rfl, rfl⟩
    · exact .inr ⟨_, rfl, .add kind parameters (eq_false_of_ne_true ‹_›)⟩
  | insert kind parameters index =>
    rw [rejects]
    simp only [apply, insert, Outcome.state_map, Outcome.answer_map]
    split
    · exact .inl ⟨rfl, rfl⟩
    · exact .inr ⟨_, rfl, .insert kind parameters index (eq_false_of_ne_true ‹_›)⟩
  | delete handles =>
    rcases r.delete_spec handles with ⟨same, rejected⟩ | ⟨count, answer, effect⟩
    · exact .inl ⟨same, refusal ((refused_map ..).trans rejected)⟩
    · exact .inr ⟨_, congrArg (Except.map Reply.deleted) answer, effect⟩
  | move h index =>
    rcases r.withCommand_spec h _ _ with ⟨same, rejected⟩ | ⟨⟨unlocked, known⟩, answer, state⟩
    · exact .inl ⟨same, refusal ((refused_map ..).trans rejected)⟩
    · refine .inr ⟨.changed true, congrArg (Except.map Reply.changed) answer, ?_⟩
      have done : (r.apply (.move h index)).state = _ := state
      exact done ▸ .move h index unlocked known
  | update h parameters =>
    rcases r.withCommand_spec h _ _ with ⟨same, rejected⟩ | ⟨⟨unlocked, known⟩, answer, state⟩
    · exact .inl ⟨same, refusal ((refused_map ..).trans rejected)⟩
    · refine .inr ⟨.changed true, congrArg (Except.map Reply.changed) answer, ?_⟩
      have done : (r.apply (.update h parameters)).state = _ := state
      exact done ▸ .update h parameters unlocked known
  | reindent => exact .inr ⟨_, rfl, .reindent⟩
  | load records =>
    refine (r.load_spec records).imp_right fun ⟨answer, effect⟩ => ⟨_, ?_, effect⟩
    rw [apply, Outcome.answer_map, answer]
    rfl
  | lock on => exact .inr ⟨_, rfl, .lock on⟩

/-- An operation changes nothing, or it is carried out. -/
theorem apply_spec (edit : Edit) :
    (r.apply edit).state = r ∨
      ∃ reply, (r.apply edit).answer = .ok reply ∧ Effect r edit reply (r.apply edit).state :=
  (r.rejects_or_effect edit).imp_left And.left

end Effect

/-! ## The invariant is kept -/

namespace WellFormed

variable {r : Routine}

theorem lock (wf : r.WellFormed) (on : Bool) : { r with locked := on }.WellFormed :=
  ⟨wf.commands, wf.indents⟩

theorem update (wf : r.WellFormed) (h : Handle Command) (parameters : Parameters) :
    WellFormed { r with commands := r.commands.modify h fun c => { c with parameters } } := by
  refine ⟨wf.commands.modify h _, ?_⟩
  have same {τ : Type} (f : Command → τ) (blind : ∀ c, f { c with parameters } = f c) :
      (r.commands.modify h fun c => { c with parameters }).entries.map (f ·.2) =
        r.commands.entries.map (f ·.2) := by
    rw [Roster.entries_modify, List.map_map]
    refine List.map_congr_left fun entry _ => ?_
    dsimp only [Function.comp]
    split
    · exact blind entry.2
    · rfl
  have hi := same (·.indent) fun _ => rfl
  have hb := same (·.kind.bracket) fun _ => rfl
  exact hi.trans (wf.indents.trans (congrArg (depths 0) hb.symm))

theorem effect (wf : r.WellFormed) {edit : Edit} {reply : Reply} {r' : Routine}
    (effect : Effect r edit reply r') : r'.WellFormed := by
  cases effect with
  | add kind parameters => exact wellFormed_reindent (wf.commands.registerAt _ _)
  | insert kind parameters index => exact wellFormed_reindent (wf.commands.registerAt _ _)
  | delete handles => exact wellFormed_reindent (wf.commands.foldl_remove _)
  | move h index _ known =>
    exact wellFormed_reindent (wf.commands.moveTo (wf.commands.contains_iff.mp known) index)
  | update h parameters => exact wf.update h parameters
  | reindent => exact wellFormed_reindent wf.commands
  | load records commands =>
    exact wellFormed_reindent (Roster.registerAll_spec wf.commands.clear commands).1
  | lock on => exact wf.lock on

theorem apply (wf : r.WellFormed) (edit : Edit) : (r.apply edit).state.WellFormed := by
  rcases r.apply_spec edit with same | ⟨reply, -, effect⟩
  · rwa [same]
  · exact wf.effect effect

theorem run (wf : r.WellFormed) (edits : List Edit) : (r.run edits).WellFormed := by
  induction edits generalizing r with
  | nil => exact wf
  | cons edit edits ih => exact ih (wf.apply edit)

end WellFormed

/-! ## Locks -/

section Locks

variable {r r' : Routine} {edit : Edit} {reply : Reply} (plain : ∀ on, edit ≠ .lock on)
include plain

/-- No operation but locking and unlocking changes the lock. -/
theorem Effect.locked_eq (effect : Effect r edit reply r') : r'.locked = r.locked := by
  cases effect with
  | lock on => exact absurd rfl (plain on)
  | _ => rfl

/-- A locked routine is left as it is, except that it may be unlocked. -/
theorem Effect.of_locked (effect : Effect r edit reply r') (wf : r.WellFormed)
    (locked : r.locked = true) : r' = r := by
  cases effect with
  | reindent => exact wf.reindent_eq_self
  | lock on => exact absurd rfl (plain on)
  | _ => simp_all

end Locks

end Routine

end RobotProgram
