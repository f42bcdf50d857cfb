import Mathlib.Data.List.Perm.Basic
import RobotProgram.Proofs.Json.Formats
import RobotProgram.Proofs.Json.Settled

/-!
# What records are read as

A record is read from an object as the members of known names change the blank record, and from a
list as its items do for the fields in order. Which changes these are is told by the names and by
the texts of the values alone.

## Main definitions

* `Json.Format.Settles`: what a format reads of a value is settled.
* `Json.Layout.Fills`: the puts that the members of known names are read as.
* `Json.Layout.FillsFirst`: the puts that the items of a list are read as.

## Main results

* `Json.Layout.reads_object_iff`, `Json.Layout.reads_list_iff`: what records are read as.
-/

namespace RobotProgram.Json

variable {α β ρ : Type}

/-! ## Formats -/

namespace Format

/-- What the format reads of a text of the grammar is settled. -/
def Settles (format : Format α) (depth : Nat) : Prop :=
  ∀ {written : List Char}, IsValue written → Settled (format.ofText depth) written

variable {format : Format α} {depth : Nat} {written : List Char}

theorem settles_map (h : format.Settles depth) (f : α → β) : (format.map f).Settles depth := by
  refine fun value => ⟨fun same ends whole => ?_⟩
  obtain ⟨⟨x, r⟩, read, done⟩ := bind_eq_ok_iff.mp whole
  cases done
  obtain ⟨rfl, reads⟩ := (h value).takes same ends read
  exact ⟨rfl, reads_map reads f⟩

theorem reads_map_iff (h : format.Settles depth) (value : IsValue written) {f : α → β} {y : β} :
    Reads ((format.map f).ofText depth) written y ↔
      ∃ x, Reads (format.ofText depth) written x ∧ y = f x := by
  constructor
  · intro reads
    have front := value.skipBlank_append []
    obtain ⟨⟨x, r⟩, read, done⟩ := bind_eq_ok_iff.mp (reads.reads front ends_nil)
    cases done
    exact ⟨x, ((h value).takes front ends_nil read).2, rfl⟩
  · rintro ⟨x, reads, rfl⟩
    exact reads_map reads f

theorem settles_string : string.Settles depth := by
  refine fun {written} value => ⟨fun {text rest r s} same _ whole => ?_⟩
  dsimp only [string] at whole
  rw [same] at whole
  split at whole
  · rename_i front
    obtain ⟨body, isBody, rfl⟩ :=
      value.of_quote (value.head?_append rest ▸ congrArg List.head? front)
    have text (rest : List Char) :
        '"' :: (body ++ ['"']) ++ rest = '"' :: (body ++ '"' :: rest) := by
      simp
    rw [text] at front
    obtain ⟨-, rfl⟩ := List.cons.inj front
    obtain ⟨spelled, rfl⟩ := spells_of_quotedRest isBody whole
    refine ⟨rfl, value.reads fun {_ rest} same _ => ?_⟩
    dsimp only [string]
    rw [same, text]
    exact quotedRest_of_spells spelled rest
  · cases whole

theorem settles_bag : Format.bag.Settles depth := by
  refine fun {written} value => ⟨fun {text rest r bag} same ends whole => ?_⟩
  dsimp only [Format.bag] at whole
  rw [same] at whole
  split at whole
  · rename_i inner front
    obtain ⟨⟨json, r⟩, read, done⟩ := bind_eq_ok_iff.mp whole
    obtain ⟨bag, made, done⟩ := bind_eq_ok_iff.mp done
    cases done
    rw [← front] at read
    obtain ⟨rfl, reads⟩ := (value.settled depth).takes (value.skipBlank_append _) ends read
    refine ⟨rfl, value.reads fun {text rest} same ends => ?_⟩
    obtain ⟨later, brace⟩ : ∃ later, written ++ rest = '\x7b' :: later := by
      obtain ⟨c, later, rfl, -⟩ := value.exists_cons
      exact ⟨_, congrArg (· :: _) (List.cons.inj front).1⟩
    have read := reads.reads (value.skipBlank_append rest) ends
    dsimp only [Format.bag]
    rw [same, brace]
    change Json.value depth ('\x7b' :: later) >>= _ = _
    rw [← brace, read, ok_bind]
    exact congrArg (· >>= _) made
  · cases whole

theorem settles_optional (h : format.Settles depth) : format.optional.Settles depth := by
  refine fun {written} value => ⟨fun {text rest r x} same ends whole => ?_⟩
  dsimp only [optional] at whole
  rw [same] at whole
  split at whole
  · rename_i front
    obtain rfl := value.of_letter (value.head?_append rest ▸ congrArg List.head? front)
    cases front
    cases whole
    exact ⟨rfl, @reads_null _ _ 0 format⟩
  · rename_i other
    obtain ⟨⟨x, r⟩, read, done⟩ := bind_eq_ok_iff.mp whole
    cases done
    obtain ⟨rfl, reads⟩ := (h value).takes (value.skipBlank_append _) ends read
    refine ⟨rfl, reads_some reads fun front => ?_⟩
    obtain ⟨later, same⟩ := List.head?_eq_some_iff.mp ((value.head?_append r).trans front)
    exact other later same

section List

variable {gap : List Char} (blank : Blank gap) {items : List Item}
  (values : ∀ i ∈ items, IsValue i.value)
include blank values

theorem reads_listText {xs : List α}
    (each : List.Forall₂ (fun (i : Item) x => Reads (format.ofText depth) i.value x) items xs) :
    Reads (format.list.ofText (depth + 1)) (listText gap items) xs := by
  refine (IsValue.list blank values).reads fun {text rest} same _ => ?_
  dsimp only [list]
  rw [same]
  exact items_enclosed blank each values rest

theorem forall₂_of_list (settles : format.Settles depth) {text rest r : List Char} {xs : List α}
    (same : skipBlank text = listText gap items ++ rest)
    (read : format.list.ofText (depth + 1) text = .ok (xs, r)) :
    r = rest ∧
      List.Forall₂ (fun (i : Item) x => Reads (format.ofText depth) i.value x) items xs := by
  dsimp only [list] at read
  rw [same] at read
  exact forall₂_of_items blank true values (fun i mem => settles (values i mem)) read

end List

theorem settles_list (h : format.Settles depth) : format.list.Settles (depth + 1) := by
  refine fun {written} value => ⟨fun {text rest r xs} same _ read => ?_⟩
  have front : written.head? = some '[' := by
    dsimp only [list] at read
    rw [same] at read
    split at read
    · rename_i front
      exact value.head?_append rest ▸ congrArg List.head? front
    · cases read
  obtain ⟨gap, items, rfl, blank, values⟩ := value.of_bracket front
  obtain ⟨rfl, each⟩ := forall₂_of_list blank values h same read
  exact ⟨rfl, reads_listText blank values each⟩

theorem settles_list_zero : format.list.Settles 0 := by
  refine fun {written} value => ⟨fun {text rest r xs} same _ read => ?_⟩
  dsimp only [list] at read
  split at read <;> cases read

/-- A list is read as its items are. -/
theorem reads_list_iff {values : List (List Char)} (h : IsList written values)
    (settles : format.Settles depth) {xs : List α} :
    Reads (format.list.ofText (depth + 1)) written xs ↔
      List.Forall₂ (Reads (format.ofText depth)) values xs := by
  obtain ⟨gap, items, rfl, blank, valid, rfl⟩ := h
  rw [List.forall₂_map_left_iff]
  refine ⟨fun reads => ?_, reads_listText blank valid⟩
  have front := reads.skipBlank_append []
  exact (forall₂_of_list blank valid settles front (reads.reads front ends_nil)).2

end Format

/-! ## Objects -/

namespace Layout

/-- A field and the change that its value makes to a record. -/
abbrev Put (ρ : Type) : Type := Field ρ × (ρ → ρ)

/-- The members whose names are those of fields. -/
def known (layout : Layout ρ) (pairs : List (String × List Char)) : List (String × List Char) :=
  pairs.filter fun pair => (layout.field? pair.1).isSome

/-- The member is read as this change to the record. -/
def ReadsAs (layout : Layout ρ) (depth : Nat) (pair : String × List Char) (put : Put ρ) : Prop :=
  layout.field? pair.1 = some put.1 ∧ Reads (put.1.format.ofText depth) pair.2 put.2

/-- The record that changes make of the blank one. -/
def build (layout : Layout ρ) (puts : List (Put ρ)) : ρ :=
  puts.foldl (fun record put => put.2 record) layout.blank

/-- The members of known names are read as these changes, none twice, and none is missing. -/
structure Fills (layout : Layout ρ) (depth : Nat) (pairs : List (String × List Char))
    (puts : List (Put ρ)) : Prop where
  each : List.Forall₂ (layout.ReadsAs depth) (layout.known pairs) puts
  once : (puts.map (·.1.name)).Nodup
  complete : ∀ field ∈ layout.fields, field.required = true → field.name ∈ puts.map (·.1.name)

/-- No name is changed twice, and none that has been seen before. -/
def Fresh (seen : List String) (puts : List (Put ρ)) : Prop :=
  (puts.map (·.1.name)).Nodup ∧ ∀ put ∈ puts, put.1.name ∉ seen

theorem fresh_cons_iff {seen : List String} {put : Put ρ} {puts : List (Put ρ)} :
    Fresh seen (put :: puts) ↔ put.1.name ∉ seen ∧ Fresh (put.1.name :: seen) puts := by
  constructor
  · rintro ⟨once, apart⟩
    obtain ⟨new, apart⟩ := List.forall_mem_cons.mp apart
    obtain ⟨single, once⟩ := List.nodup_cons.mp once
    refine ⟨new, once, fun other mem old => ?_⟩
    rcases List.mem_cons.mp old with same | old
    · exact single (List.mem_map.mpr ⟨other, mem, same⟩)
    · exact apart other mem old
  · rintro ⟨new, once, apart⟩
    refine ⟨List.nodup_cons.mpr ⟨fun mem => ?_, once⟩, List.forall_mem_cons.mpr ⟨new, ?_⟩⟩
    · obtain ⟨other, mem, same⟩ := List.mem_map.mp mem
      exact apart other mem (same ▸ List.mem_cons_self)
    · exact fun other mem old => apart other mem (List.mem_cons_of_mem _ old)

variable {layout : Layout ρ} {depth : Nat}

theorem finish_eq_ok_iff {seen : List String} {record result : ρ} :
    layout.finish seen record = .ok result ↔
      (∀ field ∈ layout.fields, field.required = true → field.name ∈ seen) ∧ result = record := by
  unfold finish
  cases missing : layout.fields.find? fun field => field.required && !seen.contains field.name with
  | some field =>
    have lacks := List.find?_some missing
    simp only [Bool.and_eq_true, Bool.not_eq_true', List.contains_eq_mem, decide_eq_false_iff_not]
      at lacks
    refine ⟨nofun, fun ⟨complete, _⟩ => ?_⟩
    exact absurd (complete field (List.mem_of_find?_eq_some missing) lacks.1) lacks.2
  | none =>
    have complete : ∀ field ∈ layout.fields, field.required = true → field.name ∈ seen := by
      simpa using missing
    simp only [Except.ok.injEq]
    exact ⟨fun same => ⟨complete, same.symm⟩, fun done => done.2.symm⟩

theorem name_of_field? {name : String} {field : Field ρ} (h : layout.field? name = some field) :
    field.name = name := by
  simpa using List.find?_some h

theorem colons_member : Colons (layout.member depth) := by
  intro state name blank text h
  rw [member, member, colon_append h]

/-- A member of another name is passed over. -/
theorem reads_unknown_iff {name : String} (unknown : layout.field? name = none) {value : List Char}
    (isValue : IsValue value) {state next : List String × ρ} :
    Reads (fun text => layout.member depth state name (':' :: text)) value next ↔ next = state := by
  have skips : Reads (fun text => layout.member depth state name (':' :: text)) value state := by
    refine isValue.reads fun {text rest} same ends => ?_
    rw [member, unknown]
    change (Json.skip text >>= fun rest => .ok (state, rest)) = _
    rw [isValue.skip same ends]
    rfl
  exact ⟨fun reads => reads.unique skips, fun same => same ▸ skips⟩

section Known

variable {name : String} {field : Field ρ} (found : layout.field? name = some field)
  {seen : List String} {record : ρ}
include found

theorem member_of_seen (old : name ∈ seen) (text : List Char) :
    layout.member depth (seen, record) name (':' :: text) = .error (.duplicateField name) := by
  rw [member, found]
  exact if_pos (by simpa using old)

theorem member_of_new (new : name ∉ seen) (text : List Char) :
    layout.member depth (seen, record) name (':' :: text) =
      (field.format.ofText depth text >>= fun read =>
        .ok ((name :: seen, read.1 record), read.2)) := by
  rw [member, found]
  exact if_neg (by simpa using new)

/-- A member of a known name puts its value into the record, unless its name was there before. -/
theorem reads_known_iff {value : List Char} (isValue : IsValue value)
    (settles : field.format.Settles depth) {next : List String × ρ} :
    Reads (fun text => layout.member depth (seen, record) name (':' :: text)) value next ↔
      name ∉ seen ∧ ∃ put, Reads (field.format.ofText depth) value put ∧
        next = (name :: seen, put record) := by
  constructor
  · intro reads
    have front := isValue.skipBlank_append []
    have whole := reads.reads front ends_nil
    by_cases new : name ∈ seen
    · rw [member_of_seen found new] at whole
      cases whole
    · rw [member_of_new found new] at whole
      obtain ⟨⟨put, r⟩, read, done⟩ := bind_eq_ok_iff.mp whole
      cases done
      exact ⟨new, put, ((settles isValue).takes front ends_nil read).2, rfl⟩
  · rintro ⟨new, put, reads, rfl⟩
    refine isValue.reads fun {text rest} same ends => ?_
    rw [member_of_new found new, reads.reads same ends]
    rfl

end Known

theorem settled_member (settles : ∀ field ∈ layout.fields, field.format.Settles depth)
    {value : List Char} (isValue : IsValue value) (state : List String × ρ) (name : String) :
    Settled (fun text => layout.member depth state name (':' :: text)) value := by
  cases found : layout.field? name with
  | none => exact ((reads_unknown_iff found isValue).mpr rfl).settled
  | some field =>
    have settle : field.format.Settles depth := settles field (List.mem_of_find?_eq_some found)
    refine ⟨fun {text rest r next} same ends whole => ?_⟩
    by_cases new : name ∈ state.1
    · rw [member_of_seen found new] at whole
      cases whole
    · rw [member_of_new found new] at whole
      obtain ⟨⟨put, r⟩, read, done⟩ := bind_eq_ok_iff.mp whole
      cases done
      obtain ⟨rfl, reads⟩ := (settle isValue).takes same ends read
      exact ⟨rfl, (reads_known_iff found isValue settle).mpr ⟨new, put, reads, rfl⟩⟩

theorem leads_cons_iff {σ : Type} {member : σ → String → List Char → Reading (σ × List Char)}
    {state last : σ} {name : String} {value : List Char} {pairs : List (String × List Char)} :
    Leads member state ((name, value) :: pairs) last ↔
      ∃ next, Reads (fun text => member state name (':' :: text)) value next ∧
        Leads member next pairs last := by
  constructor
  · rintro (_ | ⟨head, tail⟩)
    exact ⟨_, head, tail⟩
  · rintro ⟨next, head, tail⟩
    exact .cons head tail

theorem ofText_objectText {gap : List Char} {members : List Member} {text rest : List Char}
    (same : skipBlank text = objectText gap members ++ rest) :
    layout.ofText (depth + 1) text =
      (Json.fields (layout.member depth)
          ((enclosed true gap '\x7d' (members.map Member.text) ++ rest).length + 1) true
          ([], layout.blank) (enclosed true gap '\x7d' (members.map Member.text) ++ rest) >>=
        fun read => layout.finish read.1.1 read.1.2 >>= fun record => .ok (record, read.2)) := by
  rw [ofText, same]
  rfl

section Object

variable (settles : ∀ field ∈ layout.fields, field.format.Settles depth)
include settles

/-- Members lead to the names that they have and the changes that they are read as. -/
theorem leads_iff {pairs : List (String × List Char)} (values : ∀ pair ∈ pairs, IsValue pair.2)
    {seen : List String} {record : ρ} {last : List String × ρ} :
    Leads (layout.member depth) (seen, record) pairs last ↔
      ∃ puts, List.Forall₂ (layout.ReadsAs depth) (layout.known pairs) puts ∧ Fresh seen puts ∧
        last = ((puts.map (·.1.name)).reverse ++ seen,
          puts.foldl (fun record put => put.2 record) record) := by
  induction pairs generalizing seen record with
  | nil =>
    constructor
    · rintro ⟨⟩
      exact ⟨[], .nil, ⟨.nil, nofun⟩, rfl⟩
    · rintro ⟨_, ⟨⟩, -, rfl⟩
      exact .nil _
  | cons pair pairs ih =>
    obtain ⟨name, value⟩ := pair
    obtain ⟨isValue, later⟩ := List.forall_mem_cons.mp values
    rw [leads_cons_iff]
    cases found : layout.field? name with
    | none =>
      have dropped : layout.known ((name, value) :: pairs) = layout.known pairs := by
        simp [known, found]
      simp only [reads_unknown_iff found isValue, exists_eq_left, dropped, ih later]
    | some field =>
      have kept : layout.known ((name, value) :: pairs) = (name, value) :: layout.known pairs := by
        simp [known, found]
      have settle : field.format.Settles depth := settles field (List.mem_of_find?_eq_some found)
      simp only [reads_known_iff found isValue settle, kept]
      obtain rfl := name_of_field? found
      constructor
      · rintro ⟨_, ⟨new, put, reads, rfl⟩, tail⟩
        obtain ⟨puts, each, fresh, rfl⟩ := (ih later).mp tail
        exact ⟨(field, put) :: puts, .cons ⟨found, reads⟩ each, fresh_cons_iff.mpr ⟨new, fresh⟩,
          by simp⟩
      · rintro ⟨_, whole, fresh, rfl⟩
        obtain ⟨put, puts, ⟨found', reads⟩, each, rfl⟩ := List.forall₂_cons_left_iff.mp whole
        obtain rfl := Option.some.inj (found.symm.trans found')
        obtain ⟨new, fresh⟩ := fresh_cons_iff.mp fresh
        exact ⟨_, ⟨new, put.2, reads, rfl⟩, (ih later).mpr ⟨puts, each, fresh, by simp⟩⟩

theorem fills_of_ofText {gap : List Char} (blank : Blank gap) {members : List Member}
    (keys : ∀ m ∈ members, IsBody m.key) (values : ∀ m ∈ members, IsValue m.item.value)
    {text rest r : List Char} {record : ρ}
    (same : skipBlank text = objectText gap members ++ rest)
    (whole : layout.ofText (depth + 1) text = .ok (record, r)) :
    r = rest ∧ ∃ pairs puts, List.Forall₂ Member.Named members pairs ∧
      layout.Fills depth pairs puts ∧ record = layout.build puts := by
  rw [ofText_objectText same] at whole
  obtain ⟨⟨⟨seen, built⟩, r⟩, read, done⟩ := bind_eq_ok_iff.mp whole
  obtain ⟨_, finished, done⟩ := bind_eq_ok_iff.mp done
  cases done
  obtain ⟨complete, rfl⟩ := finish_eq_ok_iff.mp finished
  obtain ⟨rfl, pairs, named, leads⟩ := leads_of_fields blank true colons_member keys values
    (fun m mem => settled_member settles (values m mem)) read
  obtain ⟨puts, each, ⟨once, -⟩, same⟩ :=
    (leads_iff settles (values_of_named named values)).mp leads
  obtain ⟨rfl, rfl⟩ := Prod.mk.inj same
  exact ⟨rfl, pairs, puts, named, ⟨each, once, by simpa using complete⟩, rfl⟩

/-- What an object is read as: the changes of its known members, made to the blank record. -/
theorem reads_object_iff {written : List Char} {pairs : List (String × List Char)}
    (h : IsObject written pairs) {record : ρ} :
    Reads (layout.ofText (depth + 1)) written record ↔
      ∃ puts, layout.Fills depth pairs puts ∧ record = layout.build puts := by
  have isValue := h.isValue
  obtain ⟨gap, members, rfl, blank, values, named⟩ := h
  constructor
  · intro reads
    have front := isValue.skipBlank_append []
    obtain ⟨-, pairs', puts, named', fills, rfl⟩ := fills_of_ofText settles blank
      (isBody_of_named named) values front (reads.reads front ends_nil)
    obtain rfl := List.right_unique_forall₂' Member.rightUnique_named named named'
    exact ⟨puts, fills, rfl⟩
  · rintro ⟨puts, ⟨each, once, complete⟩, rfl⟩
    refine isValue.reads fun {text rest} same _ => ?_
    have leads : Leads (layout.member depth) ([], layout.blank) pairs _ :=
      (leads_iff settles (values_of_named named values)).mpr ⟨puts, each, ⟨once, by simp⟩, rfl⟩
    have finished : layout.finish ((puts.map (·.1.name)).reverse ++ []) (layout.build puts) =
        .ok (layout.build puts) := finish_eq_ok_iff.mpr ⟨by simpa using complete, rfl⟩
    rw [ofText_objectText same, fields_enclosed blank colons_member leads named, ok_bind]
    exact congrArg (· >>= fun record => Except.ok (record, rest)) finished

end Object

/-! ## Lists of fields -/

theorem finishItems_eq_ok_iff {i : Nat} {rest : List (Field ρ)} {record result : ρ} :
    layout.finishItems i rest record = .ok result ↔
      (∀ field ∈ rest, field.required = false) ∧ result = record := by
  unfold finishItems
  cases missing : rest.findIdx? (·.required) with
  | some n =>
    refine ⟨nofun, fun ⟨optional, _⟩ => ?_⟩
    rw [List.findIdx?_eq_none_iff.mpr optional] at missing
    cases missing
  | none =>
    simp only [Except.ok.injEq]
    exact ⟨fun same => ⟨List.findIdx?_eq_none_iff.mp missing, same.symm⟩, fun done => done.2.symm⟩

theorem endItems_nil {gap : List Char} (blank : Blank gap) (first : Bool) (rest : List Char) :
    endItems (enclosed first gap ']' [] ++ rest) = .ok rest := by
  rw [enclosed, List.append_assoc, List.singleton_append, endItems, blank.skipBlank_append,
    skipBlank_cons (by decide)]
  rfl

/-- No item may follow those of the fields. -/
theorem endItems_cons {gap : List Char} (blank : Blank gap) (first : Bool) {i : Item}
    (value : IsValue i.value) (items : List Item) (rest r : List Char) :
    endItems (enclosed first gap ']' ((i :: items).map Item.text) ++ rest) ≠ .ok r := by
  obtain ⟨c, later, same, opening⟩ := value.exists_cons
  obtain ⟨visible, bracket, -, comma⟩ := ne_of_isOpening opening
  intro read
  unfold endItems at read
  cases first with
  | true =>
    rw [List.map_cons, enclosed_true_append, i.text_append, i.blankBefore.skipBlank_append, same,
      List.cons_append, skipBlank_cons visible] at read
    split at read <;> simp_all
  | false =>
    rw [List.map_cons, enclosed_false_append, blank.skipBlank_append,
      skipBlank_cons (by decide)] at read
    split at read
    · cases read
    · rename_i front
      cases front
    · split at read <;> cases read
    · cases read

section Items

/-- Items are read as changes for the first fields, and the others may be missing. -/
theorem itemsOfText_of_forall₂ {items : List Item} {puts : List (Put ρ)}
    (each : List.Forall₂
      (fun (i : Item) put => Reads (put.1.format.ofText depth) i.value put.2) items puts)
    (values : ∀ i ∈ items, IsValue i.value) {missing : List (Field ρ)}
    (optional : ∀ field ∈ missing, field.required = false) {gap : List Char} (blank : Blank gap)
    (n : Nat) (record : ρ) (rest : List Char) :
    layout.itemsOfText depth n (puts.map Prod.fst ++ missing) record
        (enclosed (n == 0) gap ']' (items.map Item.text) ++ rest) =
      .ok (puts.foldl (fun record put => put.2 record) record, rest) := by
  induction each generalizing gap n record with
  | nil =>
    cases missing with
    | nil =>
      rw [List.map_nil, List.nil_append, itemsOfText, List.map_nil, endItems_nil blank]
      rfl
    | cons field missing =>
      have finished : layout.finishItems n (field :: missing) record = .ok record :=
        finishItems_eq_ok_iff.mpr ⟨optional, rfl⟩
      rw [List.map_nil, List.nil_append, itemsOfText, List.map_nil, nextItem_nil blank, ok_bind]
      dsimp only
      rw [finished]
      rfl
  | @cons i put items puts head _ ih =>
    obtain ⟨value, values⟩ := List.forall_mem_cons.mp values
    rw [List.map_cons, List.cons_append, itemsOfText, nextItem_cons blank _ value, ok_bind]
    dsimp only
    rw [head.reads (head.skipBlank_append _) (ends_enclosed i.blankAfter (.inl rfl) _ _), ok_bind]
    exact ih values i.blankAfter (n + 1) (put.2 record)

/-- What is read of a list of fields are changes for the first of them. -/
theorem forall₂_of_itemsOfText {fields : List (Field ρ)}
    (settles : ∀ field ∈ fields, field.format.Settles depth) {items : List Item}
    (values : ∀ i ∈ items, IsValue i.value) {gap : List Char} (blank : Blank gap) {n : Nat}
    {record result : ρ} {rest r : List Char}
    (h : layout.itemsOfText depth n fields record
      (enclosed (n == 0) gap ']' (items.map Item.text) ++ rest) = .ok (result, r)) :
    r = rest ∧ ∃ puts missing, fields = puts.map Prod.fst ++ missing ∧
      List.Forall₂ (fun (i : Item) put => Reads (put.1.format.ofText depth) i.value put.2) items
        puts ∧
      (∀ field ∈ missing, field.required = false) ∧
      result = puts.foldl (fun record put => put.2 record) record := by
  induction fields generalizing items gap n record with
  | nil =>
    obtain ⟨after, ended, done⟩ := bind_eq_ok_iff.mp h
    cases done
    cases items with
    | nil =>
      rw [List.map_nil, endItems_nil blank] at ended
      cases ended
      exact ⟨rfl, [], [], rfl, .nil, nofun, rfl⟩
    | cons i items =>
      exact absurd ended (endItems_cons blank _ (values i List.mem_cons_self) items rest _)
  | cons field fields ih =>
    cases items with
    | nil =>
      rw [itemsOfText, List.map_nil, nextItem_nil blank, ok_bind] at h
      obtain ⟨_, finished, done⟩ := bind_eq_ok_iff.mp h
      cases done
      obtain ⟨optional, rfl⟩ := finishItems_eq_ok_iff.mp finished
      exact ⟨rfl, [], field :: fields, rfl, .nil, optional, rfl⟩
    | cons i items =>
      obtain ⟨value, values⟩ := List.forall_mem_cons.mp values
      obtain ⟨settle, settles⟩ := List.forall_mem_cons.mp settles
      rw [itemsOfText, nextItem_cons blank _ value, ok_bind] at h
      obtain ⟨⟨put, mid⟩, read, h⟩ := bind_eq_ok_iff.mp h
      have settle : Settled (field.format.ofText depth) i.value := settle value
      obtain ⟨rfl, head⟩ := settle.takes (value.skipBlank_append _)
        (ends_enclosed i.blankAfter (.inl rfl) _ _) read
      obtain ⟨same, puts, missing, rfl, each, optional, rfl⟩ := ih settles values i.blankAfter h
      exact ⟨same, (field, put) :: puts, missing, rfl, .cons head each, optional, rfl⟩

end Items

/-- The values are read as changes for the first fields, and the other ones may be missing. -/
structure FillsFirst (layout : Layout ρ) (depth : Nat) (values : List (List Char))
    (puts : List (Put ρ)) : Prop where
  each : List.Forall₂ (fun value put => Reads (put.1.format.ofText depth) value put.2) values puts
  others : ∃ missing, layout.fields = puts.map Prod.fst ++ missing ∧
    ∀ field ∈ missing, field.required = false

theorem ofText_listText {gap : List Char} {items : List Item} {text rest : List Char}
    (same : skipBlank text = listText gap items ++ rest) :
    layout.ofText (depth + 1) text = layout.itemsOfText depth 0 layout.fields layout.blank
      (enclosed true gap ']' (items.map Item.text) ++ rest) := by
  rw [ofText, same]
  rfl

section List

variable (settles : ∀ field ∈ layout.fields, field.format.Settles depth)
include settles

theorem fillsFirst_of_ofText {gap : List Char} (blank : Blank gap) {items : List Item}
    (values : ∀ i ∈ items, IsValue i.value) {text rest r : List Char} {record : ρ}
    (same : skipBlank text = listText gap items ++ rest)
    (whole : layout.ofText (depth + 1) text = .ok (record, r)) :
    r = rest ∧ ∃ puts, layout.FillsFirst depth (items.map Item.value) puts ∧
      record = layout.build puts := by
  rw [ofText_listText same] at whole
  obtain ⟨rfl, puts, missing, fields, each, optional, rfl⟩ :=
    forall₂_of_itemsOfText settles values blank whole
  exact ⟨rfl, puts, ⟨List.forall₂_map_left_iff.mpr each, missing, fields, optional⟩, rfl⟩

/-- What a list is read as: the changes of its items, made to the blank record. -/
theorem reads_list_iff {written : List Char} {values : List (List Char)} (h : IsList written values)
    {record : ρ} :
    Reads (layout.ofText (depth + 1)) written record ↔
      ∃ puts, layout.FillsFirst depth values puts ∧ record = layout.build puts := by
  have isValue := h.isValue
  obtain ⟨gap, items, rfl, blank, valid, rfl⟩ := h
  constructor
  · intro reads
    have front := isValue.skipBlank_append []
    exact (fillsFirst_of_ofText settles blank valid front (reads.reads front ends_nil)).2
  · rintro ⟨puts, ⟨each, missing, fields, optional⟩, rfl⟩
    refine isValue.reads fun {text rest} same _ => ?_
    rw [ofText_listText same, fields]
    exact itemsOfText_of_forall₂ (List.forall₂_map_left_iff.mp each) valid optional blank 0 _ rest

/-- What is read of a record is settled, since it is an object or a list. -/
theorem settles_format : layout.format.Settles (depth + 1) := by
  refine fun {written} value => ⟨fun {text rest r record} same _ whole => ?_⟩
  change layout.ofText (depth + 1) text = _ at whole
  have front : written.head? = some '[' ∨ written.head? = some '\x7b' := by
    unfold ofText at whole
    rw [same] at whole
    split at whole
    · rename_i front
      exact .inl (value.head?_append rest ▸ congrArg List.head? front)
    · rename_i front
      exact .inr (value.head?_append rest ▸ congrArg List.head? front)
    · cases whole
  rcases front with front | front
  · obtain ⟨gap, items, rfl, blank, values⟩ := value.of_bracket front
    obtain ⟨rfl, filled⟩ := fillsFirst_of_ofText settles blank values same whole
    exact ⟨rfl, (reads_list_iff settles ⟨gap, items, rfl, blank, values, rfl⟩).mpr filled⟩
  · obtain ⟨gap, members, rfl, blank, keys, values⟩ := value.of_brace front
    obtain ⟨rfl, pairs, puts, named, filled⟩ := fills_of_ofText settles blank keys values same whole
    exact ⟨rfl, (reads_object_iff settles ⟨gap, members, rfl, blank, values, named⟩).mpr
      ⟨puts, filled⟩⟩

end List

theorem settles_format_zero : layout.format.Settles 0 := by
  refine fun {written} value => ⟨fun {text rest r record} same _ whole => ?_⟩
  change layout.ofText 0 text = _ at whole
  unfold ofText at whole
  split at whole <;> cases whole

end Layout

/-! ## Whole texts -/

/-- A text of one value, with blanks around it, is read as the value is. -/
theorem Format.readText_eq_ok_iff {format : Format α} (settles : format.Settles depthLimit)
    {text : String} {before written after : List Char} (blankBefore : Blank before)
    (blankAfter : Blank after) (value : IsValue written)
    (whole : text.toList = before ++ (written ++ after)) {x : α} :
    format.readText text = .ok x ↔ Reads (format.ofText depthLimit) written x := by
  have front : skipBlank text.toList = written ++ after := by
    rw [whole, blankBefore.skipBlank_append, value.skipBlank_append]
  have ends : Ends after := by
    cases after with
    | nil => exact ends_nil
    | cons c after => exact ends_of_isBlank (blankAfter c List.mem_cons_self) after
  constructor
  · intro done
    obtain ⟨⟨y, rest⟩, read, done⟩ := bind_eq_ok_iff.mp done
    obtain ⟨rfl, reads⟩ := (settles value).takes front ends read
    dsimp only at done
    rw [if_pos blankAfter.skipBlank] at done
    cases done
    exact reads
  · intro reads
    rw [readText, reads.reads front ends, ok_bind]
    exact if_pos blankAfter.skipBlank

end RobotProgram.Json
