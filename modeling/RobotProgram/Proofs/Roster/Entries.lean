import Mathlib.Data.List.InsertIdx
import Mathlib.Data.List.Nodup
import RobotProgram.Roster

/-!
# Well-formed rosters and their entries

In a well-formed roster the visual order names every registered handle once, and all handles have
been given out before. Every operation keeps that, and does to the entries what it would do to a
plain list of handles and objects.

## Main definitions

* `Roster.WellFormed`: the invariant.
* `Roster.sweep`: what a visit does to a list of entries.
* `Roster.numbered`: objects under consecutive handles.
-/

namespace RobotProgram.Roster

variable {α σ : Type}

/-- The order names the handles of the objects, each of them once and given out before. -/
structure WellFormed (r : Roster α) : Prop where
  nodup : r.order.Nodup
  perm : r.order.Perm (r.objects.map Prod.fst)
  bounds : ∀ h ∈ r.order, 0 < h.id ∧ h.id < r.next
  next_pos : 0 < r.next

theorem wellFormed_empty (label : String) : (empty label : Roster α).WellFormed :=
  ⟨List.nodup_nil, .refl _, by simp [empty], by simp [empty]⟩

/-! ## Inserting -/

theorem perm_insertAt (index : Nat) (x : σ) (xs : List σ) : (insertAt index x xs).Perm (x :: xs) :=
  List.perm_insertIdx x xs (Nat.min_le_right _ _)

@[simp] theorem mem_insertAt {index : Nat} {x y : σ} {xs : List σ} :
    y ∈ insertAt index x xs ↔ y = x ∨ y ∈ xs := by
  rw [(perm_insertAt index x xs).mem_iff, List.mem_cons]

@[simp] theorem insertAt_length (x : σ) (xs : List σ) : insertAt xs.length x xs = xs ++ [x] := by
  simp [insertAt]

/-- A partial map that keeps all elements commutes with inserting one. -/
theorem filterMap_insertAt {τ : Type} {f : σ → Option τ} {x : σ} {y : τ} {xs : List σ}
    (index : Nat) (hx : f x = some y) (hxs : ∀ z ∈ xs, (f z).isSome) :
    (insertAt index x xs).filterMap f = insertAt index y (xs.filterMap f) := by
  unfold insertAt
  rw [List.length_filterMap_eq_countP, List.countP_eq_length.mpr hxs]
  generalize min index xs.length = i
  induction xs generalizing i with
  | nil => cases i <;> simp [hx]
  | cons z zs ih =>
    obtain ⟨w, hw⟩ := Option.isSome_iff_exists.mp (hxs z (by simp))
    cases i with
    | zero => simp [hx]
    | succ i =>
      rw [List.insertIdx_succ_cons, List.filterMap_cons_some hw, List.filterMap_cons_some hw,
        List.insertIdx_succ_cons, ih (fun z hz => hxs z (List.mem_cons_of_mem _ hz))]

/-! ## Looking up -/

theorem exists_place {κ τ : Type} {xs : List (κ × τ)} {k : κ} (mem : k ∈ xs.map Prod.fst) :
    ∃ (place : Nat) (x : τ), xs[place]? = some (k, x) := by
  obtain ⟨⟨_, x⟩, entry, rfl⟩ := List.mem_map.mp mem
  obtain ⟨place, found⟩ := List.getElem?_of_mem entry
  exact ⟨place, x, found⟩

theorem lookup_cons_eq_ite {κ : Type} [BEq κ] [LawfulBEq κ] [DecidableEq κ] (k j : κ) (x : σ)
    (rest : List (κ × σ)) :
    ((j, x) :: rest).lookup k = if k = j then some x else rest.lookup k := by
  by_cases h : k = j
  · simp [h]
  · rw [List.lookup_cons, beq_false_of_ne h, if_neg h]

theorem mem_entries {r : Roster α} {h : Handle α} {x : α} :
    (h, x) ∈ r.entries ↔ h ∈ r.order ∧ r.find? h = some x := by
  simp only [entries, List.mem_filterMap, Option.map_eq_some_iff, Prod.mk.injEq]
  constructor
  · rintro ⟨_, hmem, _, hfind, rfl, rfl⟩
    exact ⟨hmem, hfind⟩
  · rintro ⟨hmem, hfind⟩
    exact ⟨h, hmem, x, hfind, rfl, rfl⟩

theorem find?_isSome_iff {r : Roster α} {h : Handle α} :
    (r.find? h).isSome ↔ h ∈ r.objects.map Prod.fst := by
  simp [find?, List.lookup_isSome_iff]

theorem resolve_eq_ok_iff {r : Roster α} {h : Handle α} {x : α} :
    r.resolve h = .ok x ↔ r.find? h = some x := by
  unfold resolve
  cases r.find? h <;> simp

theorem resolve_eq_error_iff {r : Roster α} {h : Handle α} {fault : Fault} :
    r.resolve h = .error fault ↔ r.contains h = false ∧ fault = r.fault h := by
  unfold resolve contains
  cases r.find? h <;> simp [eq_comm]

namespace WellFormed

variable {r : Roster α}

theorem contains_iff (wf : r.WellFormed) {h : Handle α} : r.contains h ↔ h ∈ r.order := by
  rw [contains, find?_isSome_iff, wf.perm.mem_iff]

theorem mem_order (wf : r.WellFormed) {h : Handle α} {x : α} (hx : r.find? h = some x) :
    h ∈ r.order :=
  wf.contains_iff.mp (by simp [contains, hx])

theorem mem_entries_iff (wf : r.WellFormed) {h : Handle α} {x : α} :
    (h, x) ∈ r.entries ↔ r.find? h = some x :=
  mem_entries.trans ⟨fun hx => hx.2, fun hx => ⟨wf.mem_order hx, hx⟩⟩

theorem find?_some_of_mem_order (wf : r.WellFormed) {h : Handle α} (hh : h ∈ r.order) :
    ∃ x, r.find? h = some x :=
  Option.isSome_iff_exists.mp (wf.contains_iff.mpr hh)

theorem nodup_keys (wf : r.WellFormed) : (r.objects.map Prod.fst).Nodup :=
  wf.perm.nodup_iff.mp wf.nodup

/-- Every object is found under its handle, so none is hidden behind another one. -/
theorem find?_of_mem_objects (wf : r.WellFormed) {h : Handle α} {x : α}
    (hx : (h, x) ∈ r.objects) : r.find? h = some x := by
  obtain ⟨y, hy⟩ := Option.isSome_iff_exists.mp
    (find?_isSome_iff.mpr (List.mem_map_of_mem (f := Prod.fst) hx))
  obtain ⟨l, m, hlm, -⟩ := List.lookup_eq_some_iff.mp hy
  have hmem : (h, y) ∈ r.objects := by simp [hlm]
  have hxy : (h, x) = (h, y) := List.inj_on_of_nodup_map wf.nodup_keys hx hmem rfl
  rw [hy, (Prod.mk.inj hxy).2]

theorem map_fst_entries (wf : r.WellFormed) : r.entries.map Prod.fst = r.order := by
  have keep : ∀ h ∈ r.order, ((r.find? h).map fun x => (h, x)).map Prod.fst = some h := by
    intro h hh
    obtain ⟨x, hx⟩ := wf.find?_some_of_mem_order hh
    simp [hx]
  rw [entries, List.map_filterMap, List.filterMap_congr keep, List.filterMap_some]

theorem getElem?_entries (wf : r.WellFormed) {i : Nat} {h : Handle α} {x : α} :
    r.entries[i]? = some (h, x) ↔ r.handleAt? i = some h ∧ r.find? h = some x := by
  have place : r.handleAt? i = r.entries[i]?.map Prod.fst := by
    rw [handleAt?, ← wf.map_fst_entries, List.getElem?_map]
  constructor
  · intro hi
    rw [place, hi]
    exact ⟨rfl, wf.mem_entries_iff.mp (List.mem_of_getElem? hi)⟩
  · rintro ⟨hh, hx⟩
    obtain ⟨⟨k, y⟩, hi, rfl⟩ := Option.map_eq_some_iff.mp (place ▸ hh)
    have hy := wf.mem_entries_iff.mp (List.mem_of_getElem? hi)
    rw [hi, Option.some.inj (hx.symm.trans hy)]

/-- A handle stands at one place only. -/
theorem place_unique (wf : r.WellFormed) {i j : Nat} {h : Handle α} {x y : α}
    (hi : r.entries[i]? = some (h, x)) (hj : r.entries[j]? = some (h, y)) : i = j := by
  have first : r.order[i]? = some h := (wf.getElem?_entries.mp hi).1
  have second : r.order[j]? = some h := (wf.getElem?_entries.mp hj).1
  obtain ⟨bound, -⟩ := List.getElem?_eq_some_iff.mp first
  exact (List.getElem?_inj bound wf.nodup).mp (first.trans second.symm)

theorem length_entries (wf : r.WellFormed) : r.entries.length = r.length := by
  rw [length, ← wf.map_fst_entries, List.length_map]

theorem nodup_entries (wf : r.WellFormed) : (r.entries.map Prod.fst).Nodup :=
  wf.map_fst_entries ▸ wf.nodup

theorem nextHandle_notMem (wf : r.WellFormed) : r.nextHandle ∉ r.order := fun hh =>
  Nat.lt_irrefl _ (wf.bounds _ hh).2

end WellFormed

/-! ## Registering -/

theorem find?_registerAt {r : Roster α} (wf : r.WellFormed) (index : Nat) (x : α) (h : Handle α) :
    (r.registerAt index x).find? h = if h = r.nextHandle then some x else r.find? h := by
  unfold find? registerAt
  rw [List.lookup_append]
  split
  · rename_i hh
    subst hh
    have fresh : r.objects.lookup r.nextHandle = none := by
      rw [← Option.not_isSome_iff_eq_none]
      exact fun hs => wf.nextHandle_notMem (wf.contains_iff.mp hs)
    simp [fresh]
  · simp [List.lookup_cons, beq_false_of_ne ‹_›]

theorem WellFormed.registerAt {r : Roster α} (wf : r.WellFormed) (index : Nat) (x : α) :
    (r.registerAt index x).WellFormed where
  nodup := by
    rw [Roster.registerAt, (perm_insertAt _ _ _).nodup_iff]
    exact List.nodup_cons.mpr ⟨wf.nextHandle_notMem, wf.nodup⟩
  perm := by
    simp only [Roster.registerAt, List.map_append, List.map_cons, List.map_nil]
    exact (perm_insertAt _ _ _).trans ((wf.perm.cons _).trans (List.perm_append_singleton _ _).symm)
  bounds := by
    intro h hh
    rcases mem_insertAt.mp hh with rfl | hh
    · exact ⟨wf.next_pos, Nat.lt_succ_self _⟩
    · exact ⟨(wf.bounds h hh).1, Nat.lt_succ_of_lt (wf.bounds h hh).2⟩
  next_pos := Nat.succ_pos _

theorem entries_registerAt {r : Roster α} (wf : r.WellFormed) (index : Nat) (x : α) :
    (r.registerAt index x).entries = insertAt index (r.nextHandle, x) r.entries := by
  have old : ∀ h ∈ r.order, (r.registerAt index x).find? h = r.find? h := by
    intro h hh
    have hne : h ≠ r.nextHandle := fun he => wf.nextHandle_notMem (he ▸ hh)
    rw [find?_registerAt wf, if_neg hne]
  have new : (r.registerAt index x).find? r.nextHandle = some x := by
    rw [find?_registerAt wf, if_pos rfl]
  have found : ∀ h ∈ r.order, (((r.registerAt index x).find? h).map (h, ·)).isSome := by
    intro h hh
    rw [old h hh, Option.isSome_map]
    exact wf.contains_iff.mpr hh
  calc (r.registerAt index x).entries
      = insertAt index (r.nextHandle, x)
          (r.order.filterMap fun h => ((r.registerAt index x).find? h).map (h, ·)) :=
        filterMap_insertAt index (congrArg (Option.map (r.nextHandle, ·)) new) found
    _ = insertAt index (r.nextHandle, x) r.entries := by
        rw [entries, List.filterMap_congr fun h hh => by rw [old h hh]]

theorem WellFormed.register {r : Roster α} (wf : r.WellFormed) (x : α) :
    (r.register x).WellFormed :=
  wf.registerAt r.length x

theorem entries_register {r : Roster α} (wf : r.WellFormed) (x : α) :
    (r.register x).entries = r.entries ++ [(r.nextHandle, x)] := by
  rw [register, entries_registerAt wf, ← wf.length_entries, insertAt_length]

/-- Objects under consecutive handles. -/
def numbered : Nat → List α → List (Handle α × α)
  | _, [] => []
  | n, x :: xs => (⟨n⟩, x) :: numbered (n + 1) xs

theorem map_fst_numbered (n : Nat) (xs : List α) :
    (numbered n xs).map Prod.fst = (List.range' n xs.length).map Handle.mk := by
  induction xs generalizing n with
  | nil => rfl
  | cons x xs ih => simp [numbered, ih, List.range'_succ]

@[simp] theorem map_snd_numbered (n : Nat) (xs : List α) : (numbered n xs).map Prod.snd = xs := by
  induction xs generalizing n with
  | nil => rfl
  | cons x xs ih => simp [numbered, ih]

theorem registerAll_spec {r : Roster α} (wf : r.WellFormed) (xs : List α) :
    (xs.foldl register r).WellFormed ∧
      (xs.foldl register r).entries = r.entries ++ numbered r.next xs ∧
      (xs.foldl register r).next = r.next + xs.length := by
  induction xs generalizing r with
  | nil => simp [wf, numbered]
  | cons x xs ih =>
    obtain ⟨wf', he, hn⟩ := ih (wf.register x)
    have next : (r.register x).next = r.next + 1 := rfl
    refine ⟨wf', ?_, ?_⟩
    · rw [List.foldl_cons, he, entries_register wf, next, List.append_assoc]
      rfl
    · rw [List.foldl_cons, hn, next, List.length_cons]
      omega

/-! ## Changing objects in place -/

theorem map_fst_alter (h : Handle α) (f : α → α) (objects : List (Handle α × α)) :
    (alter h f objects).map Prod.fst = objects.map Prod.fst := by
  simp only [alter, List.map_map]
  refine List.map_congr_left fun entry _ => ?_
  dsimp only [Function.comp]
  split <;> rfl

theorem lookup_alter (h k : Handle α) (f : α → α) (objects : List (Handle α × α)) :
    (alter h f objects).lookup k = (objects.lookup k).map (if k = h then f else id) := by
  induction objects with
  | nil => rfl
  | cons entry rest ih =>
    obtain ⟨j, x⟩ := entry
    have head : alter h f ((j, x) :: rest) = (j, if j = h then f x else x) :: alter h f rest := by
      simp only [alter, List.map_cons]
      split <;> rfl
    rw [head, lookup_cons_eq_ite, lookup_cons_eq_ite, ih]
    by_cases hj : k = j
    · subst hj
      by_cases hk : k = h <;> simp [hk]
    · rw [if_neg hj, if_neg hj]

theorem find?_modify (r : Roster α) (h k : Handle α) (f : α → α) :
    (r.modify h f).find? k = (r.find? k).map (if k = h then f else id) :=
  lookup_alter h k f r.objects

theorem find?_mapObjects (r : Roster α) (f : α → α) (h : Handle α) :
    (r.mapObjects f).find? h = (r.find? h).map f := by
  simp only [find?, mapObjects]
  induction r.objects with
  | nil => rfl
  | cons entry rest ih =>
    obtain ⟨j, x⟩ := entry
    rw [List.map_cons, lookup_cons_eq_ite, lookup_cons_eq_ite, ih]
    split <;> rfl

/-- Objects under the handles that they had are as well formed as before. -/
theorem WellFormed.withObjects {r : Roster α} (wf : r.WellFormed) {objects : List (Handle α × α)}
    (same : objects.map Prod.fst = r.objects.map Prod.fst) : { r with objects }.WellFormed :=
  ⟨wf.nodup, same ▸ wf.perm, wf.bounds, wf.next_pos⟩

theorem WellFormed.modify {r : Roster α} (wf : r.WellFormed) (h : Handle α) (f : α → α) :
    (r.modify h f).WellFormed :=
  wf.withObjects (map_fst_alter h f r.objects)

theorem WellFormed.mapObjects {r : Roster α} (wf : r.WellFormed) (f : α → α) :
    (r.mapObjects f).WellFormed :=
  wf.withObjects (by simp)

theorem entries_modify (r : Roster α) (h : Handle α) (f : α → α) :
    (r.modify h f).entries = r.entries.map fun e => if e.1 = h then (e.1, f e.2) else e := by
  rw [entries, entries, List.map_filterMap]
  refine List.filterMap_congr fun k _ => ?_
  rw [find?_modify]
  cases r.find? k with
  | none => rfl
  | some x => by_cases hk : k = h <;> simp [hk]

theorem entries_mapObjects (r : Roster α) (f : α → α) :
    (r.mapObjects f).entries = r.entries.map fun e => (e.1, f e.2) := by
  rw [entries, entries, List.map_filterMap]
  refine List.filterMap_congr fun k _ => ?_
  rw [find?_mapObjects]
  cases r.find? k <;> rfl

theorem forall_entries_modify {r : Roster α} {h : Handle α} {f : α → α} {P : Handle α × α → Prop}
    (old : ∀ entry ∈ r.entries, P entry) (new : ∀ x, (h, x) ∈ r.entries → P (h, f x)) :
    ∀ entry ∈ (r.modify h f).entries, P entry := by
  rw [entries_modify]
  refine List.forall_mem_map.mpr fun entry he => ?_
  split
  · rename_i hh
    exact hh ▸ new entry.2 (hh ▸ he)
  · exact old entry he

theorem modify_modify (r : Roster α) (h : Handle α) (f g : α → α) :
    (r.modify h f).modify h g = r.modify h fun x => g (f x) := by
  simp only [modify, alter, List.map_map]
  congr 1
  refine List.map_congr_left fun entry _ => ?_
  by_cases same : entry.1 = h <;> simp [same]

theorem modify_id (r : Roster α) (h : Handle α) : r.modify h id = r := by
  simp [modify, alter]

/-- What counts of a function is what it makes of the object of the handle. -/
theorem modify_congr {r : Roster α} (wf : r.WellFormed) {h : Handle α} {x : α} {f g : α → α}
    (hx : r.find? h = some x) (same : f x = g x) : r.modify h f = r.modify h g := by
  have objects : alter h f r.objects = alter h g r.objects := by
    refine List.map_congr_left fun entry he => ?_
    split
    · rename_i hh
      have : entry.2 = x := Option.some.inj (by rw [← wf.find?_of_mem_objects he, hh, hx])
      rw [this, same]
    · rfl
  rw [modify, objects, modify]

/-- Giving an object to the handle that has it changes nothing. -/
theorem modify_eq_self {r : Roster α} (wf : r.WellFormed) {h : Handle α} {x : α} {f : α → α}
    (hx : r.find? h = some x) (hf : f x = x) : r.modify h f = r :=
  (modify_congr wf hx (g := id) hf).trans (modify_id r h)

/-! ## Taking away -/

theorem find?_remove (r : Roster α) (h k : Handle α) :
    (r.remove h).find? k = if k = h then none else r.find? k := by
  simp only [find?, remove]
  induction r.objects with
  | nil => simp
  | cons entry rest ih =>
    obtain ⟨j, x⟩ := entry
    by_cases hj : j = h
    · subst hj
      rw [List.filter_cons_of_neg (by simp), ih, lookup_cons_eq_ite]
      by_cases hk : k = j <;> simp [hk]
    · rw [List.filter_cons_of_pos (by simpa using hj), lookup_cons_eq_ite, ih, lookup_cons_eq_ite]
      by_cases hk : k = j <;> simp [hk, hj]

theorem WellFormed.remove {r : Roster α} (wf : r.WellFormed) (h : Handle α) :
    (r.remove h).WellFormed where
  nodup := wf.nodup.filter _
  perm := by
    have := wf.perm.filter fun k => decide (k ≠ h)
    rwa [List.filter_map] at this
  bounds k hk := wf.bounds k (List.mem_of_mem_filter hk)
  next_pos := wf.next_pos

theorem entries_remove (r : Roster α) (h : Handle α) :
    (r.remove h).entries = r.entries.filter (·.1 ≠ h) := by
  rw [entries, remove, List.filterMap_filter, entries, List.filter_filterMap]
  refine List.filterMap_congr fun k _ => ?_
  change (if _ then ((r.remove h).find? k).map (k, ·) else _) = _
  rw [find?_remove]
  cases r.find? k with
  | none => simp
  | some x => by_cases hk : k = h <;> simp [hk, Option.filter]

/-- Taking handles away in turn is taking them away at once, so their order does not matter. -/
theorem foldl_remove (r : Roster α) (handles : List (Handle α)) :
    handles.foldl remove r =
      { r with
        objects := r.objects.filter (·.1 ∉ handles)
        order := r.order.filter (· ∉ handles) } := by
  induction handles generalizing r with
  | nil => simp
  | cons h rest ih =>
    rw [List.foldl_cons, ih]
    simp only [remove, List.filter_filter]
    congr 1 <;> refine List.filter_congr fun _ _ => ?_ <;> simp [Bool.and_comm]

theorem WellFormed.foldl_remove {r : Roster α} (wf : r.WellFormed) (handles : List (Handle α)) :
    (handles.foldl Roster.remove r).WellFormed := by
  induction handles generalizing r with
  | nil => exact wf
  | cons h rest ih => exact ih (wf.remove h)

theorem find?_foldl_remove (r : Roster α) (handles : List (Handle α)) (k : Handle α) :
    (handles.foldl remove r).find? k = if k ∈ handles then none else r.find? k := by
  induction handles generalizing r with
  | nil => simp
  | cons h rest ih =>
    rw [List.foldl_cons, ih, find?_remove]
    grind

theorem entries_foldl_remove (r : Roster α) (handles : List (Handle α)) :
    (handles.foldl remove r).entries = r.entries.filter (·.1 ∉ handles) := by
  induction handles generalizing r with
  | nil => simp
  | cons h rest ih =>
    rw [List.foldl_cons, ih, entries_remove, List.filter_filter]
    refine List.filter_congr fun _ _ => ?_
    simp [Bool.and_comm]

theorem WellFormed.clear {r : Roster α} (wf : r.WellFormed) : r.clear.WellFormed :=
  ⟨List.nodup_nil, .refl _, by simp [Roster.clear], wf.next_pos⟩

@[simp] theorem entries_clear (r : Roster α) : r.clear.entries = [] := rfl

/-! ## Moving -/

theorem WellFormed.moveTo {r : Roster α} (wf : r.WellFormed) {h : Handle α} (hh : h ∈ r.order)
    (index : Nat) : (r.moveTo h index).WellFormed := by
  have same : (insertAt index h (r.order.erase h)).Perm r.order :=
    (perm_insertAt _ _ _).trans (List.perm_cons_erase hh).symm
  exact ⟨same.nodup_iff.mpr wf.nodup, same.trans wf.perm,
    fun k hk => wf.bounds k (same.mem_iff.mp hk), wf.next_pos⟩

theorem entries_moveTo {r : Roster α} (wf : r.WellFormed) {h : Handle α} {x : α}
    (hx : r.find? h = some x) (index : Nat) :
    (r.moveTo h index).entries = insertAt index (h, x) (r.entries.filter (·.1 ≠ h)) := by
  have rest : r.order.erase h = r.order.filter (· ≠ h) := by
    rw [wf.nodup.erase_eq_filter]
    refine List.filter_congr fun k _ => ?_
    by_cases hk : k = h <;> simp [hk]
  have found : ∀ k ∈ r.order.filter (· ≠ h), ((r.find? k).map (k, ·)).isSome := by
    intro k hk
    rw [Option.isSome_map]
    exact wf.contains_iff.mpr (List.mem_of_mem_filter hk)
  calc (r.moveTo h index).entries
      = (insertAt index h (r.order.filter (· ≠ h))).filterMap
          fun k => (r.find? k).map (k, ·) := by rw [← rest]; rfl
    _ = insertAt index (h, x)
          ((r.order.filter (· ≠ h)).filterMap fun k => (r.find? k).map (k, ·)) :=
        filterMap_insertAt index (congrArg (Option.map (h, ·)) hx) found
    _ = insertAt index (h, x) (r.entries.filter (·.1 ≠ h)) := by
        rw [← entries_remove]
        refine congrArg _ (List.filterMap_congr fun k hk => ?_)
        rw [find?_remove, if_neg (by simpa using List.of_mem_filter hk)]

/-! ## Visiting -/

/-- Visits entries in turn, with a state that goes along. -/
def sweep (step : σ → α → σ × α) : σ → List (Handle α × α) → List (Handle α × α)
  | _, [] => []
  | s, (h, x) :: rest => (h, (step s x).2) :: sweep step (step s x).1 rest

theorem map_fst_walk (step : σ → α → σ × α) (s : σ) (hs : List (Handle α))
    (objects : List (Handle α × α)) :
    (walk step s hs objects).map Prod.fst = objects.map Prod.fst := by
  fun_induction walk step s hs objects with
  | case1 => rfl
  | case2 _ _ _ _ _ ih => exact ih
  | case3 _ _ _ _ _ _ ih => rw [ih, map_fst_alter]

theorem lookup_walk_of_notMem (step : σ → α → σ × α) (s : σ) {hs : List (Handle α)}
    (objects : List (Handle α × α)) {k : Handle α} (hk : k ∉ hs) :
    (walk step s hs objects).lookup k = objects.lookup k := by
  fun_induction walk step s hs objects with
  | case1 => rfl
  | case2 _ _ _ _ _ ih => exact ih fun hm => hk (List.mem_cons_of_mem _ hm)
  | case3 _ h _ _ _ _ ih =>
    have hne : k ≠ h := fun he => hk (he ▸ List.mem_cons_self)
    rw [ih fun hm => hk (List.mem_cons_of_mem _ hm), lookup_alter, if_neg hne, Option.map_id, id]

/-- Each object is visited as it was before, since a visit only changes objects visited earlier. -/
theorem filterMap_lookup_walk (step : σ → α → σ × α) (s : σ) {hs : List (Handle α)}
    (objects : List (Handle α × α)) (nodup : hs.Nodup) :
    (hs.filterMap fun h => ((walk step s hs objects).lookup h).map (h, ·)) =
      sweep step s (hs.filterMap fun h => (objects.lookup h).map (h, ·)) := by
  fun_induction walk step s hs objects with
  | case1 => rfl
  | case2 s h rest objects hn ih =>
    rw [List.nodup_cons] at nodup
    rw [List.filterMap_cons, lookup_walk_of_notMem _ _ _ nodup.1, List.filterMap_cons, hn]
    exact ih nodup.2
  | case3 s h rest objects x hx ih =>
    rw [List.nodup_cons] at nodup
    rw [List.filterMap_cons, lookup_walk_of_notMem _ _ _ nodup.1, lookup_alter, if_pos rfl,
      List.filterMap_cons, hx, ih nodup.2]
    simp only [Option.map_some, sweep]
    refine congrArg (_ :: sweep _ _ ·) (List.filterMap_congr fun k hk => ?_)
    have hne : k ≠ h := fun he => nodup.1 (he ▸ hk)
    rw [lookup_alter, if_neg hne, Option.map_id, id]

theorem WellFormed.visit {r : Roster α} (wf : r.WellFormed) (step : σ → α → σ × α) (s : σ) :
    (r.visit step s).WellFormed :=
  wf.withObjects (map_fst_walk step s r.order r.objects)

theorem entries_visit {r : Roster α} (wf : r.WellFormed) (step : σ → α → σ × α) (s : σ) :
    (r.visit step s).entries = sweep step s r.entries :=
  filterMap_lookup_walk step s r.objects wf.nodup

/-- A visit that leaves every entry as it is leaves the objects as they are. -/
theorem visit_eq_self {r : Roster α} (wf : r.WellFormed) {step : σ → α → σ × α} {s : σ}
    (same : sweep step s r.entries = r.entries) : r.visit step s = r := by
  suffices h : ∀ hs : List (Handle α), hs ⊆ r.order → ∀ s,
      sweep step s (hs.filterMap fun h => (r.find? h).map (h, ·)) =
        (hs.filterMap fun h => (r.find? h).map (h, ·)) →
      walk step s hs r.objects = r.objects by
    rw [visit, h r.order (List.Subset.refl _) s same]
  intro hs
  induction hs with
  | nil => intros; rfl
  | cons h rest ih =>
    intro sub s same
    obtain ⟨x, hx⟩ := wf.find?_some_of_mem_order (sub List.mem_cons_self)
    simp only [List.filterMap_cons, hx, Option.map_some, sweep, List.cons.injEq,
      Prod.mk.injEq, true_and] at same
    have kept : alter h (fun _ => (step s x).2) r.objects = r.objects :=
      congrArg objects (modify_eq_self (f := fun _ => (step s x).2) wf hx same.1)
    rw [walk, show r.objects.lookup h = some x from hx]
    dsimp only
    rw [kept]
    exact ih (fun k hk => sub (List.mem_cons_of_mem _ hk)) _ same.2

end RobotProgram.Roster
