import RobotProgram.Json.Format
import RobotProgram.Proofs.Json.Accepted

/-!
# How records that are read are written

A format takes a value of the grammar from the front of a text, a list of them if it is a list, and
for a record an object or a list.

## Main definitions

* `Json.LaidOut`: the ways to write a record.

## Main results

* `Json.Layout.takes_format`: a record is read from an object or from a list.
* `Json.Format.exists_of_readText`: a whole text is a value of this form with blanks around it.
-/

namespace RobotProgram.Json

variable {α : Type}

/-- The ways to write a record. -/
def LaidOut (text : List Char) : Prop :=
  (∃ values, IsList text values) ∨ ∃ pairs, IsObject text pairs

theorem LaidOut.isValue {text : List Char} (h : LaidOut text) : IsValue text := by
  obtain ⟨values, isList⟩ | ⟨pairs, isObject⟩ := h
  · exact isList.isValue
  · exact isObject.isValue

namespace Format

variable {P : List Char → Prop} {format : Format α} {depth : Nat}

theorem takes_map {β : Type} (h : Takes P (format.ofText depth)) (f : α → β) :
    Takes P ((format.map f).ofText depth) := by
  intro text y rest whole
  obtain ⟨⟨x, r⟩, read, done⟩ := bind_eq_ok_iff.mp whole
  cases done
  exact h _ _ _ read

theorem takes_string : Takes IsValue (string.ofText depth) := by
  intro text s rest whole
  dsimp only [string] at whole
  split at whole
  · rename_i same
    obtain ⟨body, spelled, rfl⟩ := exists_spells_of_quotedRest whole
    exact ⟨_, .string spelled.isBody, by simp [same]⟩
  · cases whole

theorem takes_bag : Takes IsValue (Format.bag.ofText depth) := by
  intro text bag rest whole
  dsimp only [Format.bag] at whole
  split at whole
  · rename_i inner same
    obtain ⟨⟨json, r⟩, read, made⟩ := bind_eq_ok_iff.mp whole
    obtain ⟨bag, -, done⟩ := bind_eq_ok_iff.mp made
    cases done
    obtain ⟨w, value, split⟩ := takes_value depth _ _ _ read
    exact ⟨w, value, same.trans ((skipBlank_cons (by decide) inner).symm.trans split)⟩
  · cases whole

theorem takes_optional (h : Takes IsValue (format.ofText depth)) :
    Takes IsValue (format.optional.ofText depth) := by
  intro text x rest whole
  dsimp only [optional] at whole
  split at whole
  · rename_i same
    obtain ⟨_, read, done⟩ := bind_eq_ok_iff.mp whole
    cases done
    exact ⟨_, .null, same.trans (congrArg _ (eq_append_of_word read))⟩
  · obtain ⟨⟨x, r⟩, read, done⟩ := bind_eq_ok_iff.mp whole
    cases done
    obtain ⟨w, value, same⟩ := h _ _ _ read
    rw [skipBlank_skipBlank] at same
    exact ⟨w, value, same⟩

theorem takes_list (h : ∀ depth, Takes P (format.ofText depth)) (valid : ∀ w, P w → IsValue w) :
    Takes (IsListOf P) (format.list.ofText depth) := by
  intro text xs rest whole
  dsimp only [list] at whole
  split at whole
  · rename_i same
    split at whole
    · cases whole
    · rename_i depth
      obtain ⟨w, isList, split⟩ := (h depth).isList valid whole
      exact ⟨w, isList, same.trans split⟩
  · cases whole

end Format

namespace Layout

variable {ρ : Type} {layout : Layout ρ}

theorem endItems_cases {text rest : List Char} (h : endItems text = .ok rest) :
    ∃ gap, Blank gap ∧ text = gap ++ ']' :: rest := by
  obtain ⟨gap, blank, split⟩ := exists_blank text
  refine ⟨gap, blank, ?_⟩
  unfold endItems at h
  split at h
  · cases h
  · rename_i same
    cases h
    exact same ▸ split
  · split at h <;> cases h
  · cases h

theorem exists_items_of_itemsOfText {depth : Nat} {fields : List (Field ρ)}
    (h : ∀ field ∈ fields, Takes IsValue (field.format.ofText depth)) {n : Nat} {record result : ρ}
    {text rest : List Char} (whole : layout.itemsOfText depth n fields record text =
      .ok (result, rest)) :
    ∃ gap, ∃ items : List Item, Blank gap ∧ (∀ i ∈ items, IsValue i.value) ∧
      text = enclosed (n == 0) gap ']' (items.map Item.text) ++ rest := by
  induction fields generalizing n record text with
  | nil =>
    obtain ⟨r, ended, done⟩ := bind_eq_ok_iff.mp whole
    cases done
    obtain ⟨gap, blank, rfl⟩ := endItems_cases ended
    exact ⟨gap, [], blank, nofun, by simp [enclosed]⟩
  | cons field fields ih =>
    obtain ⟨head, tail⟩ := List.forall_mem_cons.mp h
    obtain ⟨next, found, step⟩ := bind_eq_ok_iff.mp whole
    obtain ⟨gap, blank, ⟨r, rfl, rfl⟩ | ⟨front, rfl, rfl⟩⟩ := nextItem_cases found
    · obtain ⟨_, -, done⟩ := bind_eq_ok_iff.mp step
      cases done
      exact ⟨gap, [], blank, nofun, by simp [enclosed]⟩
    · obtain ⟨⟨put, mid⟩, read, later⟩ := bind_eq_ok_iff.mp step
      obtain ⟨w, value, same⟩ := head _ _ _ read
      obtain ⟨after, items, blank', values, rfl⟩ := ih tail later
      rw [skipBlank_skipBlank] at same
      obtain ⟨i, rfl, rfl⟩ := exists_item blank' same
      refine ⟨gap, i :: items, blank, List.forall_mem_cons.mpr ⟨value, values⟩, ?_⟩
      simp [enclosed]

theorem takesMembers_member {depth : Nat}
    (h : ∀ field ∈ layout.fields, Takes IsValue (field.format.ofText depth)) :
    TakesMembers (layout.member depth) := by
  intro state name text next rest whole
  unfold member at whole
  split at whole
  · obtain ⟨later, sep, step⟩ := bind_eq_ok_iff.mp whole
    obtain ⟨r, skipped, done⟩ := bind_eq_ok_iff.mp step
    cases done
    obtain ⟨w, value, same⟩ := exists_isValue_of_skip skipped
    exact ⟨later, w, sep, value, same⟩
  · rename_i field found
    split at whole
    · cases whole
    · obtain ⟨later, sep, step⟩ := bind_eq_ok_iff.mp whole
      obtain ⟨⟨put, r⟩, read, done⟩ := bind_eq_ok_iff.mp step
      cases done
      obtain ⟨w, value, same⟩ := h field (List.mem_of_find?_eq_some found) _ _ _ read
      exact ⟨later, w, sep, value, same⟩

/-- A record is read from an object or from a list. -/
theorem takes_format (h : ∀ depth, ∀ field ∈ layout.fields,
    Takes IsValue (field.format.ofText depth)) (depth : Nat) :
    Takes LaidOut (layout.format.ofText depth) := by
  intro text record rest whole
  change layout.ofText depth text = _ at whole
  unfold ofText at whole
  split at whole
  · rename_i same
    split at whole
    · cases whole
    · rename_i depth
      obtain ⟨gap, items, blank, values, rfl⟩ := exists_items_of_itemsOfText (h depth) whole
      exact ⟨_, .inl ⟨_, gap, items, rfl, blank, values, rfl⟩, same⟩
  · rename_i same
    split at whole
    · cases whole
    · rename_i depth
      obtain ⟨⟨⟨seen, built⟩, r⟩, read, step⟩ := bind_eq_ok_iff.mp whole
      obtain ⟨_, -, done⟩ := bind_eq_ok_iff.mp step
      cases done
      obtain ⟨w, pairs, isObject, split⟩ := (takesMembers_member (h depth)).isObject read
      exact ⟨w, .inr ⟨pairs, isObject⟩, same.trans split⟩
  · cases whole

end Layout

/-- A text that is read whole is written in the form that the reader takes. -/
theorem Format.exists_of_readText {P : List Char → Prop} {format : Format α}
    (h : Takes P (format.ofText depthLimit)) {text : String} {x : α}
    (whole : format.readText text = .ok x) :
    ∃ before w after, text.toList = before ++ (w ++ after) ∧ Blank before ∧ Blank after ∧ P w := by
  obtain ⟨⟨x, rest⟩, read, done⟩ := bind_eq_ok_iff.mp whole
  obtain ⟨before, blank, split⟩ := exists_blank text.toList
  obtain ⟨w, holds, same⟩ := h _ _ _ read
  dsimp only at done
  split at done
  · rename_i ended
    exact ⟨before, w, rest, same ▸ split, blank, List.dropWhile_eq_nil_iff.mp ended, holds⟩
  · cases done

end RobotProgram.Json
