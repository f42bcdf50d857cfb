import RobotProgram.Proofs.Roster.Entries

/-!
# Rosters as plain lists

Objects and order are kept apart, and each operation changes them one by one. To whoever uses a
roster it is a plain list of handles and objects all the same: every operation does to the list what
its name says, and all ways of looking at a roster look at that list.

## Main definitions

* `Sequence`: a plain list of handles and objects, with the operations on it.
* `Roster.Represents`: a roster stands for a list.
* `Roster.Reachable`: the rosters that can come about.
* `Roster.Consistent`: what a roster says about itself agrees.
-/

namespace RobotProgram

/-! ## Plain lists -/

/-- Objects under handles, in order, and the number of the next handle. -/
structure Sequence (α : Type) where
  entries : List (Handle α × α)
  next : Nat

namespace Sequence

variable {α σ : Type}

/-- Puts a new entry before the one at `index`, or at the end when there is none. -/
def insert (s : Sequence α) (index : Nat) (x : α) : Sequence α :=
  ⟨s.entries.insertIdx (min index s.entries.length) (⟨s.next⟩, x), s.next + 1⟩

/-- Gives a handle another object. -/
def overwrite (s : Sequence α) (h : Handle α) (y : α) : Sequence α :=
  { s with entries := s.entries.map fun e => if e.1 = h then (h, y) else e }

/-- Takes the entry of a handle away. -/
def erase (s : Sequence α) (h : Handle α) : Sequence α :=
  { s with entries := s.entries.eraseP (·.1 = h) }

/-- Takes an entry away and puts it back at `index`, or at the last place. -/
def relocate (s : Sequence α) (h : Handle α) (x : α) (index : Nat) : Sequence α :=
  { s with
    entries := (s.erase h).entries.insertIdx (min index (s.entries.length - 1)) (h, x) }

/-- Applies a function to each object. -/
def map (s : Sequence α) (f : α → α) : Sequence α :=
  { s with entries := s.entries.map fun e => (e.1, f e.2) }

/-- Changes each object in order, with a state that goes along. -/
def sweep (s : Sequence α) (step : σ → α → σ × α) (start : σ) : Sequence α :=
  { s with entries := Roster.sweep step start s.entries }

/-- The reply and the list after an operation, unless it is about a handle that is not there. -/
def apply (s : Sequence α) : Roster.Edit α → Option (Roster.Reply α × Sequence α)
  | .register x => some (.handle ⟨s.next⟩, s.insert s.entries.length x)
  | .registerAt index x => some (.handle ⟨s.next⟩, s.insert index x)
  | .modify h f => (s.entries.lookup h).map fun x => (.object (f x), s.overwrite h (f x))
  | .remove h => (s.entries.lookup h).map fun x => (.object x, s.erase h)
  | .replace h y => (s.entries.lookup h).map fun x => (.object x, s.overwrite h y)
  | .moveTo h index => (s.entries.lookup h).map fun x => (.done, s.relocate h x index)
  | .visit f => some (.objects (s.entries.map (·.2)), s.map f)
  | .mapObjects f => some (.done, s.map f)
  | .clear => some (.done, ⟨[], s.next⟩)

end Sequence

namespace Roster

variable {α σ : Type} {r : Roster α} {s : Sequence α}

/-! ## Representation -/

/-- The objects are those of the list, in some order, and the visual order is that of the list. -/
structure Represents (r : Roster α) (s : Sequence α) : Prop where
  objects : r.objects.Perm s.entries
  order : r.order = s.entries.map Prod.fst
  next : r.next = s.next
  nodup : (s.entries.map Prod.fst).Nodup
  bounds : ∀ e ∈ s.entries, 1 ≤ e.1.id ∧ e.1.id < s.next

/-- The list that a roster shows. -/
def sequence (r : Roster α) : Sequence α := ⟨r.entries, r.next⟩

theorem WellFormed.perm_entries (wf : r.WellFormed) : r.objects.Perm r.entries := by
  have objects : r.objects.Nodup := wf.nodup_keys.of_map _
  have entries : r.entries.Nodup := wf.nodup_entries.of_map _
  refine (List.perm_ext_iff_of_nodup objects entries).mpr fun ⟨h, x⟩ => ?_
  rw [wf.mem_entries_iff]
  refine ⟨wf.find?_of_mem_objects, fun hx => ?_⟩
  obtain ⟨before, after, split, -⟩ := List.lookup_eq_some_iff.mp hx
  rw [split]
  exact List.mem_append_right _ List.mem_cons_self

theorem WellFormed.represents (wf : r.WellFormed) : r.Represents r.sequence where
  objects := wf.perm_entries
  order := wf.map_fst_entries.symm
  next := rfl
  nodup := wf.nodup_entries
  bounds e he := wf.bounds e.1 (mem_entries.mp he).1

/-! ## Looking -/

theorem lookup_filterMap_find (find : Handle α → Option α) (k : Handle α) (hs : List (Handle α)) :
    (hs.filterMap fun h => (find h).map (h, ·)).lookup k = if k ∈ hs then find k else none := by
  induction hs with
  | nil => rfl
  | cons h rest ih =>
    cases hx : find h with
    | none =>
      rw [List.filterMap_cons_none (by simp [hx]), ih]
      by_cases hk : k = h <;> simp [hk, hx]
    | some x =>
      rw [List.filterMap_cons_some (by simp [hx]; rfl), lookup_cons_eq_ite, ih]
      by_cases hk : k = h <;> simp [hk, hx]

theorem WellFormed.lookup_entries (wf : r.WellFormed) (h : Handle α) :
    r.entries.lookup h = r.find? h := by
  rw [entries, lookup_filterMap_find]
  split
  · rfl
  · rename_i absent
    rw [← wf.contains_iff, contains, Bool.not_eq_true, Option.isSome_eq_false_iff] at absent
    exact (Option.isNone_iff_eq_none.mp absent).symm

theorem WellFormed.position?_eq_some_iff (wf : r.WellFormed) {h : Handle α} {i : Nat} :
    r.position? h = some i ↔ r.handleAt? i = some h := by
  rw [position?, handleAt?, List.idxOf?_eq_some_iff, List.getElem?_eq_some_iff]
  constructor
  · rintro ⟨hi, at_, -⟩
    exact ⟨hi, at_⟩
  · rintro ⟨hi, at_⟩
    refine ⟨hi, at_, fun j hj same => ?_⟩
    -- no handle stands at two places
    exact Nat.ne_of_lt hj ((wf.nodup.getElem_inj_iff).mp (same.trans at_.symm))

/-- What a roster says about itself agrees with the entries that it shows. -/
structure Consistent (r : Roster α) : Prop where
  length : r.length = r.entries.length
  objects : r.objects.length = r.length
  handleAt : ∀ i, r.handleAt? i = r.entries[i]?.map Prod.fst
  position : ∀ h i, r.position? h = some i ↔ r.handleAt? i = some h
  contains : ∀ h, r.contains h = (r.position? h).isSome
  find : ∀ h, r.find? h = r.entries.lookup h
  resolve : ∀ h x, r.resolve h = .ok x ↔ (h, x) ∈ r.entries
  absent : ∀ h fault, r.resolve h = .error fault ↔ r.contains h = false ∧ fault = r.fault h

theorem WellFormed.consistent (wf : r.WellFormed) : r.Consistent where
  length := wf.length_entries.symm
  objects := by rw [Roster.length, wf.perm.length_eq, List.length_map]
  handleAt i := by rw [handleAt?, ← wf.map_fst_entries, List.getElem?_map]
  position _ _ := wf.position?_eq_some_iff
  contains h := by rw [Bool.eq_iff_iff, wf.contains_iff, position?, List.isSome_idxOf?]
  find h := (wf.lookup_entries h).symm
  resolve _ _ := resolve_eq_ok_iff.trans wf.mem_entries_iff.symm
  absent _ _ := resolve_eq_error_iff

/-! ## Changing -/

/-- The handle that an operation is about, which must be registered. -/
def Edit.target? : Edit α → Option (Handle α)
  | .modify h _ | .remove h | .replace h _ | .moveTo h _ => some h
  | _ => none

/-- How many objects an operation registers. -/
def Edit.registrations : Edit α → Nat
  | .register _ | .registerAt _ _ => 1
  | _ => 0

theorem eraseP_fst_eq_filter {xs : List (Handle α × α)} (nodup : (xs.map Prod.fst).Nodup)
    (h : Handle α) : xs.eraseP (·.1 = h) = xs.filter (·.1 ≠ h) := by
  induction xs with
  | nil => rfl
  | cons e rest ih =>
    rw [List.map_cons, List.nodup_cons] at nodup
    by_cases he : e.1 = h
    · have others : ∀ e' ∈ rest, e'.1 ≠ h := fun e' he' eq =>
        nodup.1 (he ▸ eq ▸ List.mem_map_of_mem he')
      rw [List.eraseP_cons_of_pos (by simpa using he), List.filter_cons_of_neg (by simpa using he),
        List.filter_eq_self.mpr (by simpa using others)]
    · rw [List.eraseP_cons_of_neg (by simpa using he), List.filter_cons_of_pos (by simpa using he),
        ih nodup.2]

section Sequence

variable (wf : r.WellFormed)
include wf

theorem sequence_registerAt (index : Nat) (x : α) :
    (r.registerAt index x).sequence = r.sequence.insert index x :=
  congrArg (Sequence.mk · (r.next + 1)) (entries_registerAt wf index x)

theorem sequence_modify {h : Handle α} {x : α} (found : r.find? h = some x) (f : α → α) :
    (r.modify h f).sequence = r.sequence.overwrite h (f x) := by
  refine congrArg (Sequence.mk · r.next) ((entries_modify r h f).trans ?_)
  refine List.map_congr_left fun e he => ?_
  split
  · rename_i eq
    have same : some e.2 = some x := by rw [← wf.mem_entries_iff.mp he, eq, found]
    rw [eq, Option.some.inj same]
  · rfl

theorem sequence_remove (h : Handle α) : (r.remove h).sequence = r.sequence.erase h := by
  refine congrArg (Sequence.mk · r.next) ((entries_remove r h).trans ?_)
  exact (eraseP_fst_eq_filter wf.nodup_entries h).symm

theorem sequence_moveTo {h : Handle α} {x : α} (found : r.find? h = some x) (index : Nat) :
    (r.moveTo h index).sequence = r.sequence.relocate h x index := by
  refine congrArg (Sequence.mk · r.next) ((entries_moveTo wf found index).trans ?_)
  have mem : (h, x) ∈ r.entries := wf.mem_entries_iff.mpr found
  have length : (r.entries.eraseP (·.1 = h)).length = r.entries.length - 1 :=
    List.length_eraseP_of_mem mem (by simp)
  rw [← eraseP_fst_eq_filter wf.nodup_entries, insertAt, length]
  rfl

theorem sequence_visit (step : σ → α → σ × α) (start : σ) :
    (r.visit step start).sequence = r.sequence.sweep step start :=
  congrArg (Sequence.mk · r.next) (entries_visit wf step start)

omit wf in
theorem sequence_mapObjects (f : α → α) : (r.mapObjects f).sequence = r.sequence.map f :=
  congrArg (Sequence.mk · r.next) (entries_mapObjects r f)

end Sequence

/-- A visit without a state does the same to every object. -/
theorem sweep_const (f : α → α) (xs : List (Handle α × α)) :
    sweep (fun _ x => ((), f x)) () xs = xs.map fun e => (e.1, f e.2) := by
  induction xs with
  | nil => rfl
  | cons e rest ih => rw [sweep, ih, List.map_cons]

theorem withObject_cases (r : Roster α) (h : Handle α) (f : α → Roster α × Reply α) :
    r.find? h = none ∧ (r.withObject h f).answer = .error (r.fault h) ∧
        (r.withObject h f).state = r ∨
      ∃ x, r.find? h = some x ∧ (r.withObject h f).answer = .ok (f x).2 ∧
        (r.withObject h f).state = (f x).1 := by
  unfold withObject withFound
  cases r.find? h with
  | none => exact .inl ⟨rfl, rfl, rfl⟩
  | some x => exact .inr ⟨x, rfl, rfl, rfl⟩

/-- A handle has a place just if it has an object. -/
theorem WellFormed.apply_moveTo (wf : r.WellFormed) (h : Handle α) (index : Nat) :
    r.apply (.moveTo h index) = r.withObject h fun _ => (r.moveTo h index, .done) := by
  have both : (r.find? h).isSome = (r.position? h).isSome := wf.consistent.contains h
  rw [Roster.apply, withObject]
  cases place : r.position? h <;> cases found : r.find? h <;> simp_all [withFound]

theorem WellFormed.apply (wf : r.WellFormed) (edit : Edit α) : (r.apply edit).state.WellFormed := by
  have about {h : Handle α} {f : α → Roster α × Reply α}
      (kept : ∀ x, r.find? h = some x → (f x).1.WellFormed) :
      (r.withObject h f).state.WellFormed := by
    rcases r.withObject_cases h f with ⟨-, -, same⟩ | ⟨x, found, -, state⟩
    · rwa [same]
    · rw [state]
      exact kept x found
  cases edit with
  | register x => exact wf.register x
  | registerAt index x => exact wf.registerAt index x
  | modify h f => exact about fun _ _ => wf.modify h f
  | remove h => exact about fun _ _ => wf.remove h
  | replace h y => exact about fun _ _ => wf.modify h _
  | moveTo h index =>
    rw [wf.apply_moveTo]
    exact about fun _ found => wf.moveTo (wf.mem_order found) index
  | visit f => exact wf.visit _ _
  | mapObjects f => exact wf.mapObjects f
  | clear => exact wf.clear

/--
An operation answers and does what it does to the list that the roster shows; it fails, and changes
nothing, if it is about a handle that is not registered.
-/
def Follows (r : Roster α) (edit : Edit α) : Prop :=
  match r.sequence.apply edit with
  | some (reply, s) => (r.apply edit).answer = .ok reply ∧ (r.apply edit).state.Represents s
  | none => ∃ h, edit.target? = some h ∧ r.contains h = false ∧
      (r.apply edit).answer = .error (r.fault h) ∧ (r.apply edit).state = r

theorem WellFormed.follows (wf : r.WellFormed) (edit : Edit α) : r.Follows edit := by
  have done {reply : Reply α} {s : Sequence α} (list : r.sequence.apply edit = some (reply, s))
      (answer : (r.apply edit).answer = .ok reply) (state : (r.apply edit).state.sequence = s) :
      r.Follows edit := by
    rw [Follows, list]
    exact ⟨answer, state ▸ (wf.apply edit).represents⟩
  have about {h : Handle α} {f : α → Roster α × Reply α} {g : α → Reply α × Sequence α}
      (target : edit.target? = some h) (same : r.apply edit = r.withObject h f)
      (list : r.sequence.apply edit = (r.entries.lookup h).map g)
      (square : ∀ x, r.find? h = some x → ((f x).2, (f x).1.sequence) = g x) :
      r.Follows edit := by
    rw [wf.lookup_entries] at list
    rcases r.withObject_cases h f with ⟨absent, answer, state⟩ | ⟨x, found, answer, state⟩
    · rw [absent, Option.map_none] at list
      rw [Follows, list, same]
      exact ⟨h, target, by rw [contains, absent]; rfl, answer, state⟩
    · rw [found, Option.map_some, ← square x found] at list
      exact done list (same ▸ answer) (same ▸ congrArg sequence state)
  cases edit with
  | register x =>
    refine done rfl rfl ((sequence_registerAt wf r.length x).trans ?_)
    rw [← wf.length_entries]
    rfl
  | registerAt index x => exact done rfl rfl (sequence_registerAt wf index x)
  | modify h f => exact about rfl rfl rfl fun x found => by rw [sequence_modify wf found]
  | remove h => exact about rfl rfl rfl fun x _ => by rw [sequence_remove wf]
  | replace h y => exact about rfl rfl rfl fun x found => by rw [sequence_modify wf found]
  | moveTo h index =>
    exact about rfl (wf.apply_moveTo h index) rfl fun x found => by rw [sequence_moveTo wf found]
  | visit f =>
    refine done rfl rfl ((sequence_visit wf _ _).trans ?_)
    rw [Sequence.sweep, sweep_const]
    rfl
  | mapObjects f => exact done rfl rfl (sequence_mapObjects f)
  | clear => exact done rfl rfl rfl

/-- An operation fails just if it is about a handle that is not registered. -/
theorem WellFormed.answer_eq_error_iff (wf : r.WellFormed) {edit : Edit α} {fault : Fault} :
    (r.apply edit).answer = .error fault ↔
      ∃ h, edit.target? = some h ∧ r.contains h = false ∧ fault = r.fault h := by
  have never {reply : Reply α} (answer : (r.apply edit).answer = .ok reply)
      (target : edit.target? = none) : (r.apply edit).answer = .error fault ↔
        ∃ h, edit.target? = some h ∧ r.contains h = false ∧ fault = r.fault h := by
    simp [answer, target]
  have about {h : Handle α} {f : α → Roster α × Reply α} (same : r.apply edit = r.withObject h f)
      (target : edit.target? = some h) : (r.apply edit).answer = .error fault ↔
        ∃ h, edit.target? = some h ∧ r.contains h = false ∧ fault = r.fault h := by
    rcases r.withObject_cases h f with ⟨absent, answer, -⟩ | ⟨x, found, answer, -⟩
    · simp only [same, answer, target, contains, absent, Except.error.injEq, Option.some.injEq,
        Option.isSome_none, true_and, exists_eq_left']
      exact eq_comm
    · simp [same, answer, target, contains, found]
  cases edit with
  | register | registerAt | visit | mapObjects | clear => exact never rfl rfl
  | modify | remove | replace => exact about rfl rfl
  | moveTo h index => exact about (wf.apply_moveTo h index) rfl

/-! ## Rosters that come about -/

/-- The rosters that can come about, with the number of objects that have been registered. -/
inductive Reachable : Nat → Roster α → Prop where
  | empty (label : String) : Reachable 0 (empty label)
  | apply {n : Nat} {r : Roster α} (reached : Reachable n r) (edit : Edit α) :
      Reachable (n + edit.registrations) (r.apply edit).state
  /-- A visit during which a state of any type goes along. -/
  | visit {n : Nat} {r : Roster α} (reached : Reachable n r) {σ : Type} (step : σ → α → σ × α)
      (start : σ) : Reachable n (r.visit step start)

theorem next_apply (r : Roster α) (edit : Edit α) :
    (r.apply edit).state.next = r.next + edit.registrations := by
  have about {h : Handle α} {f : α → Roster α × Reply α} (kept : ∀ x, (f x).1.next = r.next) :
      (r.withObject h f).state.next = r.next := by
    rcases r.withObject_cases h f with ⟨-, -, same⟩ | ⟨x, -, -, state⟩
    · rw [same]
    · rw [state, kept]
  cases edit with
  | register | registerAt | visit | mapObjects | clear => rfl
  | modify | remove | replace => exact about fun _ => rfl
  | moveTo h index =>
    rw [Roster.apply]
    cases r.position? h <;> rfl

/-- The roster after a sequence of operations. -/
def run (r : Roster α) (edits : List (Edit α)) : Roster α :=
  edits.foldl (fun r e => (r.apply e).state) r

theorem Reachable.run {n : Nat} (reached : Reachable n r) (edits : List (Edit α)) :
    Reachable (edits.foldl (fun n e => n + e.registrations) n) (r.run edits) := by
  induction edits generalizing n r with
  | nil => exact reached
  | cons edit edits ih => exact ih (reached.apply edit)

theorem Reachable.wellFormed {n : Nat} (reached : Reachable n r) :
    r.WellFormed ∧ r.next = n + 1 := by
  induction reached with
  | empty label => exact ⟨wellFormed_empty label, rfl⟩
  | apply _ edit ih => exact ⟨ih.1.apply edit, by rw [next_apply, ih.2]; omega⟩
  | visit _ step start ih => exact ⟨ih.1.visit step start, ih.2⟩

/--
Whatever has been done to a roster, it stands for a plain list under handles from one on, no two of
them the same; every operation on it comes to the one on the list, and fails just if its handle is
not there; and all that can be asked about it agrees with the list.
-/
theorem Reachable.refines {n : Nat} (reached : Reachable n r) :
    r.Represents r.sequence ∧ r.next = n + 1 ∧ r.Consistent ∧
      (∀ edit, r.Follows edit) ∧
      (∀ edit fault, (r.apply edit).answer = .error fault ↔
        ∃ h, edit.target? = some h ∧ r.contains h = false ∧ fault = r.fault h) ∧
      ∀ {σ : Type} (step : σ → α → σ × α) (start : σ),
        (r.visit step start).Represents (r.sequence.sweep step start) := by
  obtain ⟨wf, next⟩ := reached.wellFormed
  refine ⟨wf.represents, next, wf.consistent, wf.follows, fun _ _ => wf.answer_eq_error_iff, ?_⟩
  intro σ step start
  rw [← sequence_visit wf]
  exact (wf.visit step start).represents

/-- Registers, moves, visits and removes, and looks for a handle that is gone. -/
def shuffling : List (Edit Nat) :=
  [.register 10, .register 20, .registerAt 0 30, .moveTo ⟨3⟩ 9, .remove ⟨1⟩, .visit (· + 1),
    .replace ⟨1⟩ 40]

theorem refines_shuffling :
    Reachable 3 ((empty "item").run shuffling) ∧
      ((empty "item").run shuffling).entries = [(⟨2⟩, 21), (⟨3⟩, 31)] ∧
      ((empty "item").run shuffling).Represents ⟨[(⟨2⟩, 21), (⟨3⟩, 31)], 4⟩ ∧
      ((empty "item").run shuffling).Follows (.moveTo ⟨2⟩ 7) := by
  have reached : Reachable 3 ((empty "item").run shuffling) :=
    (Reachable.empty "item").run shuffling
  obtain ⟨represents, -, -, follows, -⟩ := reached.refines
  exact ⟨reached, rfl, represents, follows _⟩

end Roster

end RobotProgram
