import Mathlib.Data.List.Nodup
import RobotProgram.Proofs.Json.Layouts

/-!
# Ways to lay out one record

If the fields of a record are independent of one another, the order of the changes that its members
make does not matter. So members may be put into another order, members of other names may be added,
members that change nothing may be left out, and the values may be written as a list in the order of
the fields.

## Main definitions

* `Json.Layout.Sound`: the fields have different names and are independent.
* `Json.Layout.Idle`: a member that changes nothing in the blank record.
-/

namespace RobotProgram.Json.Layout

variable {ρ : Type} {layout : Layout ρ} {depth : Nat}

/-- No two fields have one name, and what is read for one does not interfere with the others. -/
structure Sound (layout : Layout ρ) (depth : Nat) : Prop where
  names : (layout.fields.map (·.name)).Nodup
  settles : ∀ field ∈ layout.fields, field.format.Settles depth
  commutes : ∀ f ∈ layout.fields, ∀ g ∈ layout.fields, f.name ≠ g.name → ∀ {v w p q},
    IsValue v → IsValue w → Reads (f.format.ofText depth) v p → Reads (g.format.ofText depth) w q →
      ∀ record, p (q record) = q (p record)

/-- The member is read as a change that leaves the blank record as it is. -/
def Idle (layout : Layout ρ) (depth : Nat) (name : String) (value : List Char) : Prop :=
  ∃ field put, layout.field? name = some field ∧ field.required = false ∧
    Reads (field.format.ofText depth) value put ∧ put layout.blank = layout.blank

/-! ## Lists of pairs -/

section Lists

variable {α β : Type} {R : α → β → Prop}

theorem exists_of_mem_right {xs : List α} {ys : List β} (h : List.Forall₂ R xs ys) :
    ∀ y ∈ ys, ∃ x ∈ xs, R x y := by
  induction h with
  | nil => exact nofun
  | cons head _ ih =>
    refine List.forall_mem_cons.mpr ⟨⟨_, List.mem_cons_self, head⟩, fun y mem => ?_⟩
    obtain ⟨x, mem, related⟩ := ih y mem
    exact ⟨x, List.mem_cons_of_mem _ mem, related⟩

theorem exists_of_mem_left {xs : List α} {ys : List β} (h : List.Forall₂ R xs ys) :
    ∀ x ∈ xs, ∃ y ∈ ys, R x y :=
  exists_of_mem_right h.flip

/-- One of the left items may be replaced by another one that is related to the same ones. -/
theorem forall₂_replace {xs xs' : List α} {x x' : α} (alike : ∀ y, R x y ↔ R x' y) {ys : List β} :
    List.Forall₂ R (xs ++ x :: xs') ys ↔ List.Forall₂ R (xs ++ x' :: xs') ys := by
  induction xs generalizing ys with
  | nil => simp only [List.nil_append, List.forall₂_cons_left_iff, alike]
  | cons z xs ih => simp only [List.cons_append, List.forall₂_cons_left_iff, ih]

end Lists

/-! ## Members -/

section Members

variable {pairs pairs' : List (String × List Char)} {puts puts' : List (Put ρ)} {record : ρ}

theorem Fills.mem_fields (fills : layout.Fills depth pairs puts) :
    ∀ put ∈ puts, put.1 ∈ layout.fields ∧
      ∃ pair ∈ pairs, Reads (put.1.format.ofText depth) pair.2 put.2 := by
  intro put mem
  obtain ⟨pair, known, found, reads⟩ := exists_of_mem_right fills.each put mem
  exact ⟨List.mem_of_find?_eq_some found, pair, List.mem_of_mem_filter known, reads⟩

/-- The order of the changes does not matter. -/
theorem build_eq_of_perm (sound : layout.Sound depth) (values : ∀ pair ∈ pairs, IsValue pair.2)
    (fills : layout.Fills depth pairs puts) (perm : puts.Perm puts') :
    layout.build puts = layout.build puts' := by
  refine perm.foldl_eq' (fun x hx y hy record => ?_) layout.blank
  by_cases same : x.1.name = y.1.name
  · rw [List.inj_on_of_nodup_map fills.once hx hy same]
  · obtain ⟨memx, px, hpx, readsx⟩ := fills.mem_fields x hx
    obtain ⟨memy, py, hpy, readsy⟩ := fills.mem_fields y hy
    exact sound.commutes y.1 memy x.1 memx (Ne.symm same) (values py hpy) (values px hpx) readsy
      readsx record

/-- Members may be put into another order. -/
theorem exists_fills_of_perm (sound : layout.Sound depth) (values : ∀ pair ∈ pairs, IsValue pair.2)
    (perm : pairs.Perm pairs')
    (h : ∃ puts, layout.Fills depth pairs puts ∧ record = layout.build puts) :
    ∃ puts, layout.Fills depth pairs' puts ∧ record = layout.build puts := by
  obtain ⟨puts, fills, rfl⟩ := h
  obtain ⟨puts', each, permuted⟩ := List.perm_comp_forall₂ (perm.symm.filter _) fills.each
  refine ⟨puts', ⟨each, ?_, ?_⟩, build_eq_of_perm sound values fills permuted.symm⟩
  · exact (permuted.map _).nodup_iff.mpr fills.once
  · exact fun field mem required =>
      (permuted.map _).mem_iff.mpr (fills.complete field mem required)

/-- Members of other names make no difference. -/
theorem fills_unknown_iff {name : String} (unknown : layout.field? name = none)
    {value : List Char} :
    layout.Fills depth ((name, value) :: pairs) puts ↔ layout.Fills depth pairs puts := by
  have dropped : layout.known ((name, value) :: pairs) = layout.known pairs := by
    simp [known, unknown]
  constructor
  · exact fun fills => ⟨dropped ▸ fills.each, fills.once, fills.complete⟩
  · exact fun fills => ⟨dropped.symm ▸ fills.each, fills.once, fills.complete⟩

theorem Fills.mem_names (fills : layout.Fills depth pairs puts) :
    ∀ put ∈ puts, put.1.name ∈ pairs.map Prod.fst := by
  intro put mem
  obtain ⟨pair, known, found, -⟩ := exists_of_mem_right fills.each put mem
  exact name_of_field? found ▸ List.mem_map_of_mem (List.mem_of_mem_filter known)

/-- A member that changes nothing may be left out. -/
theorem exists_fills_idle_iff (sound : layout.Sound depth) {name : String} {value : List Char}
    (idle : layout.Idle depth name value) (new : name ∉ pairs.map Prod.fst) :
    (∃ puts, layout.Fills depth ((name, value) :: pairs) puts ∧ record = layout.build puts) ↔
      ∃ puts, layout.Fills depth pairs puts ∧ record = layout.build puts := by
  obtain ⟨field, put, found, optional, reads, idle⟩ := idle
  have kept : layout.known ((name, value) :: pairs) = (name, value) :: layout.known pairs := by
    simp [known, found]
  have unchanged (puts : List (Put ρ)) : layout.build ((field, put) :: puts) = layout.build puts :=
    congrArg (fun start => puts.foldl (fun record (put : Put ρ) => put.2 record) start) idle
  constructor
  · rintro ⟨_, ⟨each, once, complete⟩, rfl⟩
    rw [kept] at each
    obtain ⟨⟨field', put'⟩, puts, ⟨found', reads'⟩, tail, rfl⟩ := List.forall₂_cons_left_iff.mp each
    obtain rfl := Option.some.inj (found.symm.trans found')
    obtain rfl := reads.unique reads'
    refine ⟨puts, ⟨tail, (List.nodup_cons.mp once).2, fun f mem required => ?_⟩, unchanged puts⟩
    rcases List.mem_cons.mp (complete f mem required) with same | later
    · -- the field that is left out is the only one of its name, and it is not required
      obtain rfl := List.inj_on_of_nodup_map sound.names mem (List.mem_of_find?_eq_some found) same
      rw [optional] at required
      cases required
    · exact later
  · rintro ⟨puts, fills, rfl⟩
    refine ⟨(field, put) :: puts, ⟨?_, ?_, fun f mem required => ?_⟩, (unchanged puts).symm⟩
    · rw [kept]
      exact .cons ⟨found, reads⟩ fills.each
    · refine List.nodup_cons.mpr ⟨fun mem => ?_, fills.once⟩
      obtain ⟨other, mem, same⟩ := List.mem_map.mp mem
      exact new ((same.trans (name_of_field? found)) ▸ fills.mem_names other mem)
    · exact List.mem_cons_of_mem _ (fills.complete f mem required)

/-- The value of a member may be replaced by one that is read as the same. -/
theorem fills_replace_iff {name : String} {value value' : List Char}
    (alike : ∀ field, layout.field? name = some field → ∀ put,
      Reads (field.format.ofText depth) value put ↔ Reads (field.format.ofText depth) value' put) :
    layout.Fills depth (pairs ++ (name, value) :: pairs') puts ↔
      layout.Fills depth (pairs ++ (name, value') :: pairs') puts := by
  have each :
      List.Forall₂ (layout.ReadsAs depth) (layout.known (pairs ++ (name, value) :: pairs')) puts ↔
        List.Forall₂ (layout.ReadsAs depth) (layout.known (pairs ++ (name, value') :: pairs'))
          puts := by
    simp only [known, List.filter_append, List.filter_cons]
    split
    · exact forall₂_replace fun (put : Put ρ) =>
        and_congr_right fun found => alike put.1 found put.2
    · rfl
  constructor
  · exact fun fills => ⟨each.mp fills.each, fills.once, fills.complete⟩
  · exact fun fills => ⟨each.mpr fills.each, fills.once, fills.complete⟩

end Members

/-! ## Lists of fields -/

section Fields

variable {pairs : List (String × List Char)} {puts : List (Put ρ)}

theorem field?_name (names : (layout.fields.map (·.name)).Nodup) {field : Field ρ}
    (mem : field ∈ layout.fields) : layout.field? field.name = some field := by
  obtain ⟨other, found⟩ : ∃ other, layout.field? field.name = some other :=
    Option.isSome_iff_exists.mp (List.find?_isSome.mpr ⟨field, mem, by simp⟩)
  rw [found, List.inj_on_of_nodup_map names (List.mem_of_find?_eq_some found) mem
    (name_of_field? found)]

/-- The names of the first fields are known. -/
theorem known_eq_self (names : (layout.fields.map (·.name)).Nodup)
    (front : pairs.map Prod.fst <+: layout.fields.map (·.name)) : layout.known pairs = pairs := by
  refine List.filter_eq_self.mpr fun pair mem => ?_
  obtain ⟨field, mem, same⟩ := List.mem_map.mp (front.subset (List.mem_map_of_mem mem))
  rw [← same, field?_name names mem]
  rfl

theorem forall₂_readsAs_iff :
    List.Forall₂ (layout.ReadsAs depth) pairs puts ↔
      pairs.map (fun pair => layout.field? pair.1) = puts.map (fun put => some put.1) ∧
        List.Forall₂ (fun value put => Reads (put.1.format.ofText depth) value put.2)
          (pairs.map Prod.snd) puts := by
  rw [List.forall₂_map_left_iff]
  constructor
  · intro each
    refine ⟨?_, each.imp fun _ _ readsAs => readsAs.2⟩
    induction each with
    | nil => rfl
    | cons head _ ih => exact List.cons_eq_cons.mpr ⟨head.1, ih⟩
  · rintro ⟨names, each⟩
    induction each with
    | nil => exact .nil
    | cons head _ ih =>
      obtain ⟨found, names⟩ := List.cons_eq_cons.mp names
      exact .cons ⟨found, head⟩ (ih names)

/-- Members of the first names, in order, stand for the first fields. -/
theorem fields?_eq_iff (names : (layout.fields.map (·.name)).Nodup) {taken missing : List (Field ρ)}
    (fields : layout.fields = taken ++ missing)
    (named : taken.map (·.name) = pairs.map Prod.fst) :
    pairs.map (fun pair => layout.field? pair.1) = puts.map (fun put => some put.1) ↔
      puts.map Prod.fst = taken := by
  have found : pairs.map (fun pair => layout.field? pair.1) = taken.map some := by
    calc pairs.map (fun pair => layout.field? pair.1)
        = (pairs.map Prod.fst).map layout.field? := by rw [List.map_map]; rfl
      _ = taken.map (fun field => layout.field? field.name) := by rw [← named, List.map_map]; rfl
      _ = taken.map some := List.map_congr_left fun field mem =>
          field?_name names (fields ▸ List.mem_append_left missing mem)
  have put : puts.map (fun put => some put.1) = (puts.map Prod.fst).map some := by
    rw [List.map_map]
    rfl
  rw [found, put]
  exact ⟨fun same => (List.map_injective_iff.mpr (fun _ _ => Option.some.inj) same).symm,
    fun same => same ▸ rfl⟩

/-- Members of the first names, in order, are read as the list of their values. -/
theorem fills_iff_fillsFirst (sound : layout.Sound depth)
    (front : pairs.map Prod.fst <+: layout.fields.map (·.name)) :
    layout.Fills depth pairs puts ↔ layout.FillsFirst depth (pairs.map Prod.snd) puts := by
  have known := known_eq_self sound.names front
  obtain ⟨others, split⟩ := front
  obtain ⟨taken, missing, fields, names, -⟩ := List.map_eq_append_iff.mp split.symm
  have same := @fields?_eq_iff _ _ pairs puts sound.names _ _ fields names
  have fieldNames : puts.map (·.1.name) = (puts.map Prod.fst).map (·.name) := by
    rw [List.map_map]
    rfl
  have distinct := sound.names
  rw [fields, List.map_append] at distinct
  constructor
  · rintro ⟨each, once, complete⟩
    rw [known, forall₂_readsAs_iff, same] at each
    obtain ⟨rfl, each⟩ := each
    refine ⟨each, missing, fields, fun field mem => Bool.eq_false_iff.mpr fun required => ?_⟩
    -- a field that is missing has another name than those that are there
    have early := complete field (fields ▸ List.mem_append_right _ mem) required
    rw [fieldNames] at early
    exact (List.nodup_append.mp distinct).2.2 _ early _ (List.mem_map_of_mem mem) rfl
  · rintro ⟨each, missing', fields', optional⟩
    have lengths : taken.length = (puts.map Prod.fst).length := by
      have count := each.length_eq
      rw [List.length_map, ← List.length_map (f := Prod.fst), ← names] at count
      simpa using count
    obtain ⟨rfl, rfl⟩ := List.append_inj (fields.symm.trans fields') lengths
    refine ⟨known.symm ▸ forall₂_readsAs_iff.mpr ⟨same.mpr rfl, each⟩, ?_,
      fun field mem required => ?_⟩
    · exact fieldNames ▸ (List.nodup_append.mp distinct).1
    · rw [fieldNames]
      rcases List.mem_append.mp (fields ▸ mem) with mem | mem
      · exact List.mem_map_of_mem mem
      · rw [optional field mem] at required
        cases required

end Fields

end RobotProgram.Json.Layout
