import Mathlib.Data.Finset.Card
import RobotProgram.Proofs.Routine.Invariant

/-!
# Deleting a set of commands

A set of commands is deleted whole or not at all, and what is deleted does not depend on the order in
which the set is gone through: either one of its handles is not registered, and the fault is of such a
handle, or each command is still there when its turn comes. What is left keeps its order and all but
its depths, which are those of the shorter sequence.

## Main definitions

* `Routine.Thinned`: a routine without the commands of a set.
-/

namespace RobotProgram

theorem nodup_eraseDups {α : Type} [DecidableEq α] (xs : List α) : xs.eraseDups.Nodup := by
  induction xs using List.reverseRecOn with
  | nil => simp
  | append_singleton xs x ih =>
    rw [List.eraseDups_append]
    by_cases mem : x ∈ xs
    · simpa [List.removeAll, mem] using ih
    · simpa [List.removeAll, mem, List.nodup_append, List.eraseDups_cons] using
        ⟨ih, fun y hy same => mem (same ▸ hy)⟩

namespace Routine

variable {r : Routine} {handles : List (Handle Command)}

/-- The second routine is the first one without the commands of a set. -/
structure Thinned (set : Finset (Handle Command)) (r q : Routine) : Prop where
  flat : q.flat = r.flat.filter (·.1 ∉ set)
  indents : q.indents = depths 0 ((r.flat.filter (·.1 ∉ set)).map (·.2.kind.bracket))
  registered : ∀ h, q.commands.contains h = true ↔ h ∉ set ∧ r.commands.contains h = true
  next : q.commands.next = r.commands.next
  locked : q.locked = r.locked

/-! ## The three ways a deletion goes -/

theorem delete_of_idle (idle : r.locked = true ∨ handles = []) :
    (r.delete handles).answer = .ok 0 ∧ (r.delete handles).state = r := by
  rcases r.delete_cases handles with ⟨-, nothing⟩ | ⟨h, mem, unlocked, -⟩ | ⟨unlocked, some, -⟩
  · exact nothing
  · grind
  · grind

theorem delete_of_unknown (unlocked : r.locked = false)
    (unknown : ∃ h ∈ handles, r.commands.contains h = false) :
    ∃ h ∈ handles, r.commands.contains h = false ∧
      (r.delete handles).answer = .error (r.commands.fault h) ∧ (r.delete handles).state = r := by
  obtain ⟨k, mem, gone⟩ := unknown
  rcases r.delete_cases handles with ⟨idle, -⟩ | ⟨h, found, -, failed⟩ | ⟨-, -, known, -⟩
  · grind
  · exact ⟨h, found, failed⟩
  · rw [known k mem] at gone
    cases gone

theorem delete_of_known (unlocked : r.locked = false) (some : handles ≠ [])
    (known : ∀ h ∈ handles, r.commands.contains h = true) :
    (r.delete handles).answer = .ok handles.eraseDups.length ∧
      (r.delete handles).state =
        reindent { r with commands := handles.eraseDups.foldl .remove r.commands } := by
  rcases r.delete_cases handles with ⟨idle, -⟩ | ⟨h, found, -, gone, -⟩ | ⟨-, -, -, deleted⟩
  · grind
  · rw [known h found] at gone
    cases gone
  · exact deleted

theorem contains_iff_mem_flat (wf : r.commands.WellFormed) {h : Handle Command} :
    r.commands.contains h = true ↔ h ∈ r.flat.map Prod.fst := by
  have handles_eq : r.flat.map Prod.fst = r.commands.order := by
    rw [← wf.map_fst_entries, flat, List.map_map]
    rfl
  rw [handles_eq, wf.contains_iff]

theorem thinned_foldl_remove (wf : r.commands.WellFormed) (handles : List (Handle Command)) :
    Thinned handles.toFinset r
      (reindent { r with commands := handles.foldl .remove r.commands }) := by
  have left : (handles.foldl Roster.remove r.commands).WellFormed := wf.foldl_remove handles
  have flat : (reindent { r with commands := handles.foldl .remove r.commands }).flat =
      r.flat.filter (·.1 ∉ handles.toFinset) := by
    rw [flat_reindent left]
    simp [Routine.flat, entries, Roster.entries_foldl_remove, List.filter_map, Function.comp_def]
  refine ⟨flat, ?_, fun h => ?_, ?_, rfl⟩
  · rw [← flat, flat_reindent left, indents_reindent left]
    simp [Routine.flat, brackets, Function.comp_def]
  · rw [contains_iff_mem_flat (wellFormed_reindent left).commands, flat, contains_iff_mem_flat wf]
    simp only [List.mem_map, List.mem_filter, decide_eq_true_eq]
    grind
  · change (handles.foldl Roster.remove r.commands).next = _
    rw [Roster.foldl_remove]

/-- No handle is taken away twice, so each is registered when its turn comes. -/
theorem contains_foldl_remove {before after : List (Handle Command)} {h : Handle Command}
    (known : ∀ k ∈ handles, r.commands.contains k = true)
    (turns : handles.eraseDups = before ++ h :: after) :
    (before.foldl .remove r.commands).contains h = true := by
  have nodup := nodup_eraseDups handles
  have mem : h ∈ handles := by
    rw [← List.mem_eraseDups, turns]
    simp
  have fresh : h ∉ before := by
    intro early
    rw [turns] at nodup
    exact (List.nodup_append.mp nodup).2.2 h early h (by simp) rfl
  rw [Roster.contains, Roster.find?_foldl_remove, if_neg fresh]
  exact known h mem

/-- The order in which the handles are given, and how often, makes no difference to the state. -/
theorem state_delete_congr {others : List (Handle Command)}
    (same : ∀ h, h ∈ others ↔ h ∈ handles) :
    (r.delete others).state = (r.delete handles).state := by
  have none_iff : others = [] ↔ handles = [] := by
    simp only [List.eq_nil_iff_forall_not_mem, same]
  by_cases idle : r.locked = true ∨ handles = []
  · rw [(delete_of_idle idle).2, (delete_of_idle (idle.imp_right none_iff.mpr)).2]
  obtain ⟨unlocked, some⟩ := not_or.mp idle
  replace unlocked := Bool.eq_false_of_not_eq_true unlocked
  by_cases known : ∀ h ∈ handles, r.commands.contains h = true
  · rw [(delete_of_known unlocked some known).2,
      (delete_of_known unlocked (mt none_iff.mp some) fun h hh => known h ((same h).mp hh)).2]
    simp only [Roster.foldl_remove, List.mem_eraseDups, same]
  · push Not at known
    obtain ⟨h, mem, gone⟩ := known
    replace gone := Bool.eq_false_of_not_eq_true gone
    obtain ⟨_, _, _, _, left⟩ := delete_of_unknown unlocked ⟨h, mem, gone⟩
    obtain ⟨_, _, _, _, right⟩ := delete_of_unknown unlocked ⟨h, (same h).mpr mem, gone⟩
    rw [left, right]

/-- Deleting a set of commands fails as a whole, does nothing, or takes away exactly the set, in
whatever order the handles of the set are gone through. -/
theorem delete_set (wf : r.commands.WellFormed) {set : Finset (Handle Command)}
    (lists : handles.toFinset = set) :
    (r.locked = false → (∃ h ∈ set, r.commands.contains h = false) →
      (∃ h ∈ set, r.commands.contains h = false ∧
        (r.delete handles).answer = .error (r.commands.fault h)) ∧
      (r.delete handles).state = r) ∧
    (r.locked = true ∨ set = ∅ →
      (r.delete handles).answer = .ok 0 ∧ (r.delete handles).state = r) ∧
    (r.locked = false → set.Nonempty → (∀ h ∈ set, r.commands.contains h = true) →
      (r.delete handles).answer = .ok set.card ∧ Thinned set r (r.delete handles).state ∧
      ∀ before h after, handles.eraseDups = before ++ h :: after →
        (before.foldl .remove r.commands).contains h = true) ∧
    ∀ others, others.toFinset = set → (r.delete others).state = (r.delete handles).state := by
  subst lists
  have members (h) : h ∈ handles.toFinset ↔ h ∈ handles := List.mem_toFinset
  refine ⟨fun unlocked unknown => ?_, fun idle => ?_, fun unlocked some known => ?_,
    fun others same => ?_⟩
  · simp only [members] at unknown ⊢
    obtain ⟨h, mem, gone, answer, state⟩ := delete_of_unknown unlocked unknown
    exact ⟨⟨h, mem, gone, answer⟩, state⟩
  · exact delete_of_idle (idle.imp_right (List.toFinset_eq_empty_iff _).mp)
  · replace some : handles ≠ [] := (List.toFinset_nonempty_iff _).mp some
    simp only [members] at known
    obtain ⟨answer, state⟩ := delete_of_known unlocked some known
    have once : handles.eraseDups.toFinset = handles.toFinset := by
      ext h
      simp
    have count : handles.eraseDups.length = handles.toFinset.card := by
      rw [← once, List.toFinset_card_of_nodup (nodup_eraseDups handles)]
    refine ⟨by rw [answer, count], ?_, fun before h after => contains_foldl_remove known⟩
    rw [state, ← once]
    exact thinned_foldl_remove wf handles.eraseDups
  · refine state_delete_congr fun h => ?_
    rw [← List.mem_toFinset, same, members]

/-- A block in a block, with a wait in each and one behind them. -/
def boxed : Routine :=
  empty.run <| [CommandKind.startBlock, .wait, .startBlock, .wait, .endBlock, .endBlock, .wait].map
    (.add · none)

/-- What is left of the two blocks is one block. -/
theorem delete_boxed :
    let gone : List (Handle Command) := [⟨5⟩, ⟨1⟩, ⟨5⟩, ⟨2⟩]
    boxed.commands.WellFormed ∧
      (boxed.delete gone).answer = .ok 3 ∧
      Thinned {⟨1⟩, ⟨2⟩, ⟨5⟩} boxed (boxed.delete gone).state ∧
      boxed.indents = [0, 1, 1, 2, 1, 0, 0] ∧ (boxed.delete gone).state.indents = [0, 1, 0, 0] ∧
      (boxed.delete (⟨9⟩ :: gone)).answer = .error (.unregistered "command" 9) ∧
      (boxed.delete (⟨9⟩ :: gone)).state = boxed := by
  intro gone
  have wf : boxed.commands.WellFormed := (wellFormed_empty.run _).commands
  have some_of_them : gone.toFinset = {⟨1⟩, ⟨2⟩, ⟨5⟩} := by decide
  obtain ⟨-, -, deleted, -⟩ := delete_set wf some_of_them
  obtain ⟨answer, thinned, -⟩ := deleted rfl (by decide) (by decide)
  obtain ⟨failed, -⟩ := delete_set wf (rfl : (⟨9⟩ :: gone).toFinset = _)
  exact ⟨wf, answer, thinned, by decide, by decide, by decide, (failed rfl (by decide)).2⟩

end Routine

end RobotProgram
