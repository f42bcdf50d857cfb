import RobotProgram.Proofs.Routine.Deletion
import RobotProgram.Proofs.Routine.Pairing

/-!
# Edits and the depths beside them

A command that is no bracket may be put in, taken away or moved, and no other command changes its
depth. When a pair of brackets is taken away, what it enclosed comes out by one level and all else
stays as it was: inside the block the depth does not fall to the one outside, so no end is cut off
at zero there that was not before, and behind the block the pass goes on with the depth that it had.

## Main definitions

* `Routine.deepened`: a command one level deeper.
* `Routine.Divided`: the commands as a pair of brackets divides them.
* `Routine.Unwrapped`: a routine without a pair of brackets.
-/

namespace RobotProgram

theorem CommandKind.bracket_eq_plain_iff {kind : CommandKind} :
    kind.bracket = .plain ↔ kind ≠ .startBlock ∧ kind ≠ .endBlock := by
  cases kind <;> simp [bracket]

namespace Routine

open Roster (sweep insertAt)

variable {r : Routine} {handles : List (Handle Command)} {bs : List Bracket} {i j : Nat}

/-! ## The pass over parts of a list -/

/-- The depth that some commands leave for the ones after them. -/
def leaving (depth : Nat) (entries : List (Handle Command × Command)) : Nat :=
  (entries.map (·.2.kind.bracket)).foldl depthAfter depth

@[simp] theorem leaving_nil (depth : Nat) : leaving depth [] = depth := rfl

@[simp] theorem leaving_cons (depth : Nat) (entry : Handle Command × Command)
    (rest : List (Handle Command × Command)) :
    leaving depth (entry :: rest) = leaving (depthAfter depth entry.2.kind.bracket) rest := rfl

theorem leaving_append (depth : Nat) (xs ys : List (Handle Command × Command)) :
    leaving depth (xs ++ ys) = leaving (leaving depth xs) ys := by
  simp [leaving]

theorem leaving_take (r : Routine) (n : Nat) :
    leaving 0 (r.entries.take n) = (opened r.brackets n).length := by
  rw [leaving, List.map_take]
  exact foldl_depthAfter_take r.brackets n

theorem length_sweep (depth : Nat) (entries : List (Handle Command × Command)) :
    (sweep indentStep depth entries).length = entries.length := by
  induction entries generalizing depth with
  | nil => rfl
  | cons entry rest ih => exact congrArg (· + 1) (ih _)

theorem sweep_append (depth : Nat) (xs ys : List (Handle Command × Command)) :
    sweep indentStep depth (xs ++ ys) =
      sweep indentStep depth xs ++ sweep indentStep (leaving depth xs) ys := by
  induction xs generalizing depth with
  | nil => rfl
  | cons entry rest ih => exact congrArg (_ :: ·) (ih _)

theorem sweep_append_eq_self {depth : Nat} {xs ys : List (Handle Command × Command)}
    (same : sweep indentStep depth (xs ++ ys) = xs ++ ys) :
    sweep indentStep depth xs = xs ∧ sweep indentStep (leaving depth xs) ys = ys := by
  rw [sweep_append] at same
  exact List.append_inj same (length_sweep depth xs)

theorem sweep_cons_eq_self {depth : Nat} {entry : Handle Command × Command}
    {rest : List (Handle Command × Command)}
    (same : sweep indentStep depth (entry :: rest) = entry :: rest) :
    sweep indentStep (depthAfter depth entry.2.kind.bracket) rest = rest :=
  (List.cons.inj same).2

theorem WellFormed.sweep_entries (wf : r.WellFormed) :
    sweep indentStep 0 r.entries = r.entries :=
  sweep_eq_self wf.indents

/-! ## Commands that are no brackets -/

/-- The pass gives the others the depths that they have without a command that is no bracket. -/
theorem sweep_insertAt (depth index : Nat) (h : Handle Command) {c : Command}
    (plain : c.kind.bracket = .plain) (entries : List (Handle Command × Command)) :
    ∃ place, sweep indentStep depth (insertAt index (h, c) entries) =
      insertAt index (h, { c with indent := place }) (sweep indentStep depth entries) := by
  unfold insertAt
  rw [length_sweep]
  generalize min index entries.length = i
  induction entries generalizing depth i with
  | nil => cases i <;> simp [sweep, indentStep]
  | cons entry rest ih =>
    cases i with
    | zero => exact ⟨depth, by simp [sweep, indentStep, plain, depthOf, depthAfter]⟩
    | succ i =>
      obtain ⟨place, same⟩ := ih (depthAfter depth entry.2.kind.bracket) i
      exact ⟨place, congrArg (_ :: ·) same⟩

theorem sweep_filter {P : Handle Command → Bool} (depth : Nat)
    {entries : List (Handle Command × Command)}
    (plain : ∀ entry ∈ entries, P entry.1 = false → entry.2.kind.bracket = .plain) :
    sweep indentStep depth (entries.filter (P ·.1)) =
      (sweep indentStep depth entries).filter (P ·.1) := by
  induction entries generalizing depth with
  | nil => rfl
  | cons entry rest ih =>
    obtain ⟨head, tail⟩ := List.forall_mem_cons.mp plain
    cases kept : P entry.1 with
    | true => simp [sweep, kept, ih _ tail]
    | false => simp [sweep, kept, ih _ tail, indentStep, head kept, depthAfter]

theorem WellFormed.sweep_others (wf : r.WellFormed)
    (plain : ∀ h ∈ handles, ∃ c, r.commands.find? h = some c ∧ c.kind.bracket = .plain) :
    sweep indentStep 0 (r.entries.filter (·.1 ∉ handles)) =
      r.entries.filter (·.1 ∉ handles) := by
  have gone : ∀ entry ∈ r.entries, decide (entry.1 ∉ handles) = false →
      entry.2.kind.bracket = .plain := by
    intro entry mem out
    obtain ⟨c, found, bracket⟩ := plain entry.1 (by simpa using out)
    have same : some entry.2 = some c := (wf.commands.mem_entries_iff.mp mem).symm.trans found
    rwa [Option.some.inj same]
  rw [sweep_filter (P := fun h => decide (h ∉ handles)) 0 gone, wf.sweep_entries]

theorem insert_plain (wf : r.WellFormed) (unlocked : r.locked = false) {kind : CommandKind}
    (plain : kind.bracket = .plain) (parameters : Parameters) (index : Nat) :
    ∃ place, (r.insert kind parameters index).state.entries =
      insertAt index (r.commands.nextHandle, { Command.new kind parameters with indent := place })
        r.entries := by
  obtain ⟨place, swept⟩ :=
    sweep_insertAt 0 index r.commands.nextHandle (c := .new kind parameters) plain r.entries
  refine ⟨place, ?_⟩
  rw [insert, if_neg (by simp [unlocked])]
  dsimp only
  rw [entries_reindent (wf.commands.registerAt _ _), entries, Roster.entries_registerAt wf.commands]
  rw [wf.sweep_entries] at swept
  exact swept

theorem delete_plain (wf : r.WellFormed) (unlocked : r.locked = false) (nonempty : handles ≠ [])
    (plain : ∀ h ∈ handles, ∃ c, r.commands.find? h = some c ∧ c.kind.bracket = .plain) :
    (r.delete handles).state.entries = r.entries.filter (·.1 ∉ handles) := by
  have known : ∀ h ∈ handles, r.commands.contains h = true := by
    intro h mem
    obtain ⟨c, found, -⟩ := plain h mem
    simp [Roster.contains, found]
  rw [(delete_of_known unlocked nonempty known).2, entries_reindent (wf.commands.foldl_remove _),
    entries, Roster.entries_foldl_remove]
  simp only [List.mem_eraseDups]
  exact wf.sweep_others plain

theorem move_plain (wf : r.WellFormed) (unlocked : r.locked = false) {h : Handle Command}
    {c : Command} (found : r.commands.find? h = some c) (plain : c.kind.bracket = .plain)
    (index : Nat) :
    ∃ place, (r.move h index).state.entries =
      insertAt index (h, { c with indent := place }) (r.entries.filter (·.1 ≠ h)) := by
  have known : r.commands.contains h = true := by simp [Roster.contains, found]
  have plains : ∀ k ∈ [h], ∃ c, r.commands.find? k = some c ∧ c.kind.bracket = .plain := by
    simpa using ⟨c, found, plain⟩
  have rest := wf.sweep_others plains
  simp only [List.mem_singleton] at rest
  obtain ⟨place, swept⟩ := sweep_insertAt 0 index h plain (r.entries.filter (·.1 ≠ h))
  refine ⟨place, ?_⟩
  rw [move, withCommand, if_neg (by simp [known]), if_neg (by simp [unlocked])]
  dsimp only
  rw [entries_reindent (wf.commands.moveTo (wf.commands.mem_order found) index), entries,
    Roster.entries_moveTo wf.commands found]
  rw [rest] at swept
  exact swept

/-! ## Pairs of brackets -/

/-- The same command one level deeper. -/
def deepened (entry : Handle Command × Command) : Handle Command × Command :=
  (entry.1, { entry.2 with indent := entry.2.indent + 1 })

/-- Some entries as the brackets at two places divide them. -/
structure Divided (i j : Nat) (entries before : List (Handle Command × Command))
    (opening : Handle Command × Command) (inside : List (Handle Command × Command))
    (closing : Handle Command × Command) (after : List (Handle Command × Command)) : Prop where
  whole : entries = before ++ opening :: (inside ++ closing :: after)
  start : before.length = i
  stop : i + 1 + inside.length = j
  opens : opening.2.kind.bracket = .opening
  closes : closing.2.kind.bracket = .closing

/-- The second routine is the first one without the brackets at two places, between which all come
out by one level. -/
def Unwrapped (i j : Nat) (r q : Routine) : Prop :=
  ∃ before opening inside closing after,
    Divided i j r.entries before opening (inside.map deepened) closing after ∧
      q.entries = before ++ (inside ++ after)

/-- A command stands one level deeper where the ones before it leave one level more, unless it is
an end that is cut off at zero. -/
theorem depth_succ {depth : Nat} {b : Bracket} (positive : 0 < depthAfter (depth + 1) b) :
    depthAfter (depth + 1) b = depthAfter depth b + 1 ∧
      depthOf (depth + 1) b = depthOf depth b + 1 := by
  cases b with
  | opening | plain => exact ⟨rfl, rfl⟩
  | closing =>
    simp only [depthAfter, depthOf] at *
    omega

theorem sweep_succ {depth : Nat} {entries : List (Handle Command × Command)}
    (positive : ∀ n, 0 < leaving (depth + 1) (entries.take n)) :
    sweep indentStep (depth + 1) entries = (sweep indentStep depth entries).map deepened ∧
      leaving (depth + 1) entries = leaving depth entries + 1 := by
  induction entries generalizing depth with
  | nil => exact ⟨rfl, rfl⟩
  | cons entry rest ih =>
    have first : 0 < depthAfter (depth + 1) entry.2.kind.bracket := by simpa using positive 1
    obtain ⟨after, place⟩ := depth_succ first
    obtain ⟨deeper, last⟩ := ih fun n => by simpa [after] using positive (n + 1)
    simp [sweep, indentStep, deepened, after, place, deeper, last]

theorem Matched.length_opened (matched : Matched bs i j) :
    (opened bs j).length = (opened bs i).length + 1 := by
  obtain ⟨closing, lt, opening, -⟩ := matched_iff.mp matched
  have inner := length_enclosing closing
  have outer := length_enclosing opening
  have nonempty : 0 < (opened bs j).length :=
    List.length_pos_of_mem (matched.mem_opened lt (Nat.le_refl j))
  rw [← matched.enclosing_eq, outer] at inner
  change (opened bs i).length = (opened bs j).length - 1 at inner
  omega

theorem exists_split {α : Type} {xs : List α} {x : α} (here : xs[i]? = some x) :
    ∃ before after, xs = before ++ x :: after ∧ before.length = i := by
  obtain ⟨bound, rfl⟩ := List.getElem?_eq_some_iff.mp here
  refine ⟨xs.take i, xs.drop (i + 1), ?_, by simp; omega⟩
  rw [← List.drop_eq_getElem_cons, List.take_append_drop]

theorem Matched.exists_divided (matched : Matched r.brackets i j) :
    ∃ before opening inside closing after,
      Divided i j r.entries before opening inside closing after := by
  obtain ⟨ends, lt, starts, -⟩ := matched_iff.mp matched
  rw [brackets, List.getElem?_map, Option.map_eq_some_iff] at ends starts
  obtain ⟨closing, atEnd, closes⟩ := ends
  obtain ⟨opening, atStart, opens⟩ := starts
  obtain ⟨front, after, whole, length⟩ := exists_split atEnd
  rw [whole, List.getElem?_append_left (by omega)] at atStart
  obtain ⟨before, inside, rfl, start⟩ := exists_split atStart
  rw [List.append_assoc] at whole
  rw [List.length_append, List.length_cons] at length
  exact ⟨before, opening, inside, closing, after, whole, start, by omega, opens, closes⟩

namespace Divided

variable {before inside after : List (Handle Command × Command)}
  {opening closing : Handle Command × Command}
  (divided : Divided i j r.entries before opening inside closing after)
include divided

theorem getElem?_start : r.entries[i]? = some opening := by
  simp [divided.whole, ← divided.start]

theorem getElem?_stop : r.entries[j]? = some closing := by
  have length : (before ++ opening :: inside).length = j := by
    rw [List.length_append, List.length_cons, divided.start]
    have := divided.stop
    omega
  rw [divided.whole, ← List.cons_append, ← List.append_assoc, ← length]
  simp

theorem fst_ne (wf : r.commands.WellFormed) : opening.1 ≠ closing.1 := by
  intro same
  have last : r.entries[j]? = some (opening.1, closing.2) := same ▸ divided.getElem?_stop
  have := wf.place_unique divided.getElem?_start last
  have := divided.stop
  omega

/-- No other command has the handle of one of the brackets. -/
theorem filter_entries (wf : r.commands.WellFormed)
    (pair : ∀ h, h ∈ handles ↔ h = opening.1 ∨ h = closing.1) :
    r.entries.filter (·.1 ∉ handles) = before ++ (inside ++ after) := by
  have apart : r.entries.Pairwise fun a b => a.1 ≠ b.1 := List.pairwise_map.mp wf.nodup_entries
  have kept {entries : List (Handle Command × Command)}
      (others : ∀ entry ∈ entries, entry.1 ≠ opening.1 ∧ entry.1 ≠ closing.1) :
      entries.filter (·.1 ∉ handles) = entries := by
    refine List.filter_eq_self.mpr fun entry mem => decide_eq_true ?_
    rw [pair, not_or]
    exact others entry mem
  rw [divided.whole] at apart ⊢
  simp only [List.pairwise_append, List.pairwise_cons, List.mem_append, List.mem_cons] at apart
  rw [List.filter_append, List.filter_cons_of_neg (by simp [pair]), List.filter_append,
    List.filter_cons_of_neg (by simp [pair]), kept, kept, kept]
  all_goals grind

/-- The depth inside is that of the brackets that are open, the pair's own among them. -/
theorem leaving_take (n : Nat) (within : n ≤ inside.length) :
    leaving (leaving 0 before + 1) (inside.take n) = (opened r.brackets (i + 1 + n)).length := by
  have first : r.entries.take (i + 1 + n) = before ++ opening :: inside.take n := by
    rw [divided.whole, ← divided.start, Nat.add_assoc, List.take_length_add_append, Nat.add_comm 1,
      List.take_succ_cons, List.take_append_of_le_length within]
  rw [← Routine.leaving_take, first, leaving_append, leaving_cons, divided.opens]
  rfl

/-- The depth does not fall to the one outside before the block has ended. -/
theorem leaving_take_pos (matched : Matched r.brackets i j) (n : Nat) :
    0 < leaving (leaving 0 before + 1) (inside.take n) := by
  have := divided.stop
  rw [List.take_eq_take_min, divided.leaving_take _ (Nat.min_le_right _ _)]
  exact List.length_pos_of_mem (matched.mem_opened (by omega) (by omega))

/-- A block leaves the depth that it has begun at. -/
theorem leaving_inside (matched : Matched r.brackets i j) :
    leaving (leaving 0 before + 1) inside = leaving 0 before + 1 := by
  have front : r.entries.take i = before := by simp [divided.whole, ← divided.start]
  have all := divided.leaving_take inside.length (Nat.le_refl _)
  rwa [List.take_length, divided.stop, matched.length_opened, ← Routine.leaving_take, front] at all

/-- Without the brackets the pass gives smaller depths inside, and then goes on as before. -/
theorem exists_shallower (wf : r.WellFormed) (matched : Matched r.brackets i j) :
    ∃ shallower, inside = shallower.map deepened ∧
      sweep indentStep 0 (before ++ (inside ++ after)) = before ++ (shallower ++ after) := by
  have level := divided.leaving_inside matched
  obtain ⟨deeper, next⟩ := sweep_succ (divided.leaving_take_pos matched)
  -- with the brackets the pass changes nothing, in none of the three parts
  have settled := wf.sweep_entries
  rw [divided.whole] at settled
  obtain ⟨outside, fromOpening⟩ := sweep_append_eq_self settled
  have fromInside := sweep_cons_eq_self fromOpening
  rw [divided.opens] at fromInside
  obtain ⟨within, fromClosing⟩ := sweep_append_eq_self fromInside
  have behind := sweep_cons_eq_self fromClosing
  rw [divided.closes] at behind
  change sweep indentStep (leaving 0 before + 1) inside = inside at within
  change sweep indentStep (leaving (leaving 0 before + 1) inside - 1) after = after at behind
  refine ⟨sweep indentStep (leaving 0 before) inside, within.symm.trans deeper, ?_⟩
  rw [sweep_append, outside, sweep_append, show leaving (leaving 0 before) inside =
    leaving (leaving 0 before + 1) inside - 1 by omega, behind]

end Divided

theorem delete_matched (wf : r.WellFormed) (unlocked : r.locked = false)
    {a b : Handle Command} (matched : Matched r.brackets i j)
    (first : r.commands.handleAt? i = some a) (last : r.commands.handleAt? j = some b)
    (pair : handles.toFinset = {a, b}) :
    (r.delete handles).answer = .ok 2 ∧ Unwrapped i j r (r.delete handles).state := by
  obtain ⟨before, ⟨a', opening⟩, inside, ⟨b', closing⟩, after, divided⟩ := matched.exists_divided
  obtain ⟨atStart, found⟩ := wf.commands.getElem?_entries.mp divided.getElem?_start
  obtain ⟨atStop, found'⟩ := wf.commands.getElem?_entries.mp divided.getElem?_stop
  obtain rfl : a' = a := Option.some.inj (atStart.symm.trans first)
  obtain rfl : b' = b := Option.some.inj (atStop.symm.trans last)
  have once : handles.eraseDups.toFinset = {a', b'} := by
    rw [← pair]
    ext
    simp
  have members (h : Handle Command) : h ∈ handles.eraseDups ↔ h = a' ∨ h = b' := by
    rw [← List.mem_toFinset, once, Finset.mem_insert, Finset.mem_singleton]
  have known : ∀ h ∈ handles, r.commands.contains h = true := by
    intro h mem
    rcases (members h).mp (List.mem_eraseDups.mpr mem) with rfl | rfl <;>
      simp [Roster.contains, found, found']
  have nonempty : handles ≠ [] :=
    List.ne_nil_of_mem (List.mem_eraseDups.mp ((members a').mpr (.inl rfl)))
  obtain ⟨answer, state⟩ := delete_of_known unlocked nonempty known
  constructor
  · rw [answer, ← List.toFinset_card_of_nodup (nodup_eraseDups handles), once,
      Finset.card_pair (divided.fst_ne wf.commands)]
  · obtain ⟨shallower, rfl, rest⟩ := divided.exists_shallower wf matched
    refine ⟨before, _, shallower, _, after, divided, ?_⟩
    rw [state, entries_reindent (wf.commands.foldl_remove _), entries, Roster.entries_foldl_remove,
      ← rest, ← divided.filter_entries wf.commands members]
    rfl

/-! ## Edits of an unlocked routine -/

/--
Taking a pair of brackets away brings all that it encloses out by one level and leaves all else;
putting in, taking away or moving what is no bracket leaves all else.
-/
theorem depths_local (wf : r.WellFormed) (unlocked : r.locked = false) :
    (∀ i j a b handles, Matched r.brackets i j → r.commands.handleAt? i = some a →
      r.commands.handleAt? j = some b → handles.toFinset = {a, b} →
        (r.delete handles).answer = .ok 2 ∧ Unwrapped i j r (r.delete handles).state) ∧
    (∀ kind parameters index, kind ≠ .startBlock → kind ≠ .endBlock → ∃ place,
      (r.insert kind parameters index).state.entries = insertAt index
        (r.commands.nextHandle, { Command.new kind parameters with indent := place }) r.entries) ∧
    (∀ handles, handles ≠ [] → (∀ h ∈ handles, ∃ c, r.commands.find? h = some c ∧
        c.kind ≠ .startBlock ∧ c.kind ≠ .endBlock) →
      (r.delete handles).state.entries = r.entries.filter (·.1 ∉ handles)) ∧
    ∀ h c index, r.commands.find? h = some c → c.kind ≠ .startBlock → c.kind ≠ .endBlock →
      ∃ place, (r.move h index).state.entries =
        insertAt index (h, { c with indent := place }) (r.entries.filter (·.1 ≠ h)) := by
  have plain {kind : CommandKind} (start : kind ≠ .startBlock) (stop : kind ≠ .endBlock) :
      kind.bracket = .plain := CommandKind.bracket_eq_plain_iff.mpr ⟨start, stop⟩
  refine ⟨fun i j a b handles matched first last pair => ?_,
    fun kind parameters index start stop => ?_, fun handles nonempty others => ?_,
    fun h c index found start stop => ?_⟩
  · exact delete_matched wf unlocked matched first last pair
  · exact insert_plain wf unlocked (plain start stop) parameters index
  · refine delete_plain wf unlocked nonempty fun h mem => ?_
    obtain ⟨c, found, start, stop⟩ := others h mem
    exact ⟨c, found, plain start stop⟩
  · exact move_plain wf unlocked found (plain start stop) index

/-- A block in a block, behind an end that ends nothing and in front of a block that does not end. -/
def lopsided : Routine :=
  empty.run <| [CommandKind.endBlock, .startBlock, .wait, .startBlock, .wait, .endBlock, .endBlock,
    .startBlock, .wait].map (.add · none)

/-- The outer block is taken away; and a wait inside is moved out, in front of everything. -/
theorem depths_local_lopsided :
    lopsided.WellFormed ∧ lopsided.locked = false ∧ Matched lopsided.brackets 1 6 ∧
      Unwrapped 1 6 lopsided (lopsided.delete [⟨7⟩, ⟨2⟩]).state ∧
      lopsided.indents = [0, 0, 1, 1, 2, 1, 0, 0, 1] ∧
      (lopsided.delete [⟨7⟩, ⟨2⟩]).state.indents = [0, 0, 0, 1, 0, 0, 1] ∧
      (∃ place, (lopsided.move ⟨5⟩ 0).state.entries =
        insertAt 0 (⟨5⟩, { Command.new .wait none with indent := place })
          (lopsided.entries.filter (·.1 ≠ ⟨5⟩))) ∧
      (lopsided.move ⟨5⟩ 0).state.indents = [0, 0, 0, 1, 1, 1, 0, 0, 1] := by
  have wf : lopsided.WellFormed := wellFormed_empty.run _
  have matched : Matched lopsided.brackets 1 6 := by decide
  obtain ⟨pair, -, -, move⟩ := depths_local wf rfl
  exact ⟨wf, rfl, matched, (pair 1 6 ⟨2⟩ ⟨7⟩ _ matched rfl rfl (by decide)).2, by decide, by decide,
    move ⟨5⟩ { Command.new .wait none with indent := 2 } 0 rfl (by decide) (by decide), by decide⟩

end Routine

end RobotProgram
