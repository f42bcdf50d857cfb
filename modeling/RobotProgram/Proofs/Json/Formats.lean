import RobotProgram.Json.Format
import RobotProgram.Proofs.Json.Values

/-!
# Formats read what is written for them

How the reading back of values carries over to formats: each plain format reads what is written of
its values, a composed one does as its parts do, and a layout reads the object of a record from its
members. What a format promises of all it reads is put together in the same way.

## Main definitions

* `Json.Format.Promises`: what holds of all that a format reads.
-/

namespace RobotProgram.Json

variable {α β ρ : Type}

/-! ## Reading back -/

namespace Format

variable {format : Format α} {depth level : Nat} {written : List Char} {x : α}

theorem reads_map (h : Reads (format.ofText depth) written x) (f : α → β) :
    Reads ((format.map f).ofText depth) written (f x) := by
  refine ⟨h.starts, fun {text rest} same ends => ?_⟩
  change (format.ofText depth text >>= fun read => .ok (f read.1, read.2)) = _
  rw [h.reads same ends]
  rfl

theorem reads_string (s : String) : Reads (string.ofText depth) (pretty level (.string s)) s := by
  refine ⟨⟨_, _, rfl, by decide⟩, fun {text rest} same _ => ?_⟩
  rw [pretty, stringText_append] at same
  dsimp only [string]
  rw [same]
  exact quotedRest_escaped s rest

theorem reads_bag {bag : Bag} (h : Reads (value depth) (pretty level bag.toJson) bag.toJson) :
    Reads (Format.bag.ofText depth) (pretty level bag.toJson) bag := by
  refine ⟨h.starts, fun {text rest} same ends => ?_⟩
  obtain ⟨later, brace⟩ : ∃ later, pretty level bag.toJson ++ rest = '\x7b' :: later := by
    unfold Bag.toJson
    cases bag.members <;> exact ⟨_, rfl⟩
  have read : value depth ('\x7b' :: later) = .ok (bag.toJson, rest) :=
    h.reads ((skipBlank_cons (by decide) _).trans brace.symm) ends
  dsimp only [Format.bag]
  rw [same, brace]
  change (value depth ('\x7b' :: later) >>= fun read =>
    asBag read.1 >>= fun bag => .ok (bag, read.2)) = _
  rw [read]
  exact congrArg (fun bag => Except.ok (bag, rest)) bag.ofMembers_members

theorem reads_null (format : Format α) :
    Reads (format.optional.ofText depth) (pretty level .null) none := by
  refine ⟨⟨_, _, rfl, by decide⟩, fun {text rest} same _ => ?_⟩
  dsimp only [optional]
  rw [same]
  rfl

theorem reads_some (h : Reads (format.ofText depth) written x) (plain : written.head? ≠ some 'n') :
    Reads (format.optional.ofText depth) written (some x) := by
  refine ⟨h.starts, fun {text rest} same ends => ?_⟩
  have read := h.reads (h.skipBlank_append rest) ends
  obtain ⟨c, later, rfl, -⟩ := h.starts
  dsimp only [optional]
  rw [same]
  split
  · rename_i front
    exact absurd (congrArg some (List.cons.inj front).1) plain
  · rw [read]
    rfl

theorem reads_list {write : α → Json} {xs : List α}
    (h : ∀ x ∈ xs, Reads (format.ofText depth) (pretty (level + 1) (write x)) x) :
    Reads (format.list.ofText (depth + 1)) (pretty level (.array (xs.map write))) xs := by
  refine ⟨?_, fun {text rest} same _ => ?_⟩
  · cases xs <;> exact ⟨_, _, rfl, by decide⟩
  · obtain ⟨inner, front, read⟩ := exists_items_array h rest
    dsimp only [list]
    rw [same, front]
    exact read

end Format

namespace Layout

variable {layout : Layout ρ} {depth level : Nat}

theorem reads_member {seen : List String} {record : ρ} {name : String} {required : Bool}
    {format : Format α} {put : α → ρ → ρ}
    (found : layout.field? name = some ⟨name, required, format.map put⟩)
    (new : seen.contains name = false) {written : List Char} {x : α}
    (h : Reads (format.ofText depth) written x) :
    Reads (fun text => layout.member depth (seen, record) name (':' :: text)) written
      (name :: seen, put x record) := by
  refine ⟨h.starts, fun {text rest} same ends => ?_⟩
  rw [member, found]
  dsimp only
  rw [new]
  change ((format.map put).ofText depth text >>= fun read =>
    .ok ((name :: seen, read.1 record), read.2)) = _
  rw [(Format.reads_map h put).reads same ends]
  rfl

theorem reads_object {members : List (String × Json)} (seen : List String) {record : ρ}
    (taken : Taken (layout.member depth) level ([], layout.blank) members (seen, record))
    (complete : layout.finish seen record = .ok record) :
    Reads (layout.ofText (depth + 1)) (pretty level (.object members)) record := by
  refine ⟨?_, fun {text rest} same _ => ?_⟩
  · cases members <;> exact ⟨_, _, rfl, by decide⟩
  · obtain ⟨inner, front, read⟩ := exists_fields_object taken rest
    rw [ofText, same, front]
    change (Json.fields (layout.member depth) (inner.length + 1) true ([], layout.blank) inner >>=
      fun read => layout.finish read.1.1 read.1.2 >>= fun record => .ok (record, read.2)) = _
    rw [read, ok_bind]
    dsimp only
    rw [complete]
    rfl

end Layout

/-! ## Promises -/

namespace Format

/-- All that the format reads within a depth satisfies a predicate. -/
def Promises (format : Format α) (depth : Nat) (P : α → Prop) : Prop :=
  ∀ text x rest, format.ofText depth text = .ok (x, rest) → P x

variable {format : Format α} {depth : Nat}

theorem promises_map {f : α → β} {P : β → Prop} (h : format.Promises depth fun x => P (f x)) :
    (format.map f).Promises depth P := by
  intro text x rest read
  obtain ⟨⟨x, rest⟩, inner, done⟩ := bind_eq_ok_iff.mp read
  cases done
  exact h _ _ _ inner

theorem promises_bag : Format.bag.Promises depth fun bag => bag.toJson.depth ≤ depth := by
  intro text bag rest read
  dsimp only [Format.bag] at read
  split at read
  · obtain ⟨⟨json, rest⟩, whole, made⟩ := bind_eq_ok_iff.mp read
    obtain ⟨bag, object, done⟩ := bind_eq_ok_iff.mp made
    cases done
    have deep := depth_le_of_value whole
    cases json with
    | object members =>
      cases object
      exact Nat.le_trans (Bag.depth_toJson_ofMembers_le members) deep
    | _ => cases object
  · cases read

theorem promises_optional {P : Option α → Prop} (none : P none)
    (some : format.Promises depth fun x => P (some x)) : format.optional.Promises depth P := by
  intro text x rest read
  dsimp only [optional] at read
  split at read
  · obtain ⟨_, -, done⟩ := bind_eq_ok_iff.mp read
    cases done
    exact none
  · obtain ⟨⟨x, rest⟩, inner, done⟩ := bind_eq_ok_iff.mp read
    cases done
    exact some _ _ _ inner

theorem promises_list {P : α → Prop} (h : format.Promises depth P) :
    format.list.Promises (depth + 1) fun xs => ∀ x ∈ xs, P x := by
  intro text xs rest read
  dsimp only [list] at read
  split at read
  · exact items_induction (h _ _ _) read
  · cases read

end Format

namespace Layout

variable {layout : Layout ρ} {depth : Nat}

theorem eq_of_finish {seen : List String} {record result : ρ}
    (h : layout.finish seen record = .ok result) : result = record := by
  unfold finish at h
  split at h
  · cases h
  · exact (Except.ok.inj h).symm

theorem eq_of_finishItems {i : Nat} {rest : List (Field ρ)} {record result : ρ}
    (h : layout.finishItems i rest record = .ok result) : result = record := by
  unfold finishItems at h
  split at h
  · cases h
  · exact (Except.ok.inj h).symm

section Fields

variable {P : ρ → Prop}

theorem promises_zero : layout.format.Promises 0 P := by
  intro text record rest read
  dsimp only [format, ofText] at read
  split at read <;> cases read

theorem itemsOfText_induction {fields : List (Field ρ)}
    (puts : ∀ field ∈ fields,
      field.format.Promises depth fun put => ∀ record, P record → P (put record))
    {i : Nat} {record result : ρ} (start : P record) {text rest : List Char}
    (h : layout.itemsOfText depth i fields record text = .ok (result, rest)) : P result := by
  induction fields generalizing i record text with
  | nil =>
    obtain ⟨_, -, done⟩ := bind_eq_ok_iff.mp h
    cases done
    exact start
  | cons field fields ih =>
    obtain ⟨head, tail⟩ := List.forall_mem_cons.mp puts
    obtain ⟨next, -, h⟩ := bind_eq_ok_iff.mp h
    cases next with
    | done after =>
      obtain ⟨_, finished, done⟩ := bind_eq_ok_iff.mp h
      cases done
      exact eq_of_finishItems finished ▸ start
    | item text =>
      obtain ⟨⟨put, mid⟩, read, h⟩ := bind_eq_ok_iff.mp h
      exact ih tail (head _ _ _ read record start) h

variable (blank : P layout.blank)
  (puts : ∀ field ∈ layout.fields,
    field.format.Promises depth fun put => ∀ record, P record → P (put record))
include blank puts

/-- What the blank record satisfies and every field keeps, all records satisfy. -/
theorem promises_format : layout.format.Promises (depth + 1) P := by
  have kept : ∀ {state : List String × ρ} {name text next rest}, P state.2 →
      layout.member depth state name text = .ok (next, rest) → P next.2 := by
    intro state name text next rest start read
    unfold member at read
    split at read
    · obtain ⟨_, -, later⟩ := bind_eq_ok_iff.mp read
      obtain ⟨_, -, done⟩ := bind_eq_ok_iff.mp later
      cases done
      exact start
    · rename_i field found
      split at read
      · cases read
      · obtain ⟨_, -, later⟩ := bind_eq_ok_iff.mp read
        obtain ⟨⟨put, mid⟩, value, done⟩ := bind_eq_ok_iff.mp later
        cases done
        exact puts field (List.mem_of_find?_eq_some found) _ _ _ value state.2 start
  intro text result rest read
  dsimp only [format, ofText] at read
  split at read
  · exact itemsOfText_induction puts blank read
  · obtain ⟨⟨⟨seen, record⟩, mid⟩, members, later⟩ := bind_eq_ok_iff.mp read
    obtain ⟨record, finished, done⟩ := bind_eq_ok_iff.mp later
    cases done
    rw [eq_of_finish finished]
    exact fields_induction (P := fun state => P state.2) kept blank members
  · cases read

end Fields

end Layout

end RobotProgram.Json
