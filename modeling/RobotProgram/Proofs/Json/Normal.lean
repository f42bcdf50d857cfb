import RobotProgram.Bag

/-!
# Depth and order of values

Putting the members of objects in order changes nothing where they are in order already, and never
makes a value deeper.

## Main definitions

* `Json.floats`: the floats in a value.
-/

namespace RobotProgram

namespace Json

/-! ## Order -/

theorem keyPrecedes_ne {key k : String} {v : Json} {rest : List (String × Json)}
    (before : keyPrecedes key ((k, v) :: rest) = true) : key ≠ k := by
  rintro rfl
  exact List.lt_irrefl _ (of_decide_eq_true before)

theorem insertMember_eq_cons {key : String} {value : Json} {members : List (String × Json)}
    (before : keyPrecedes key members = true) :
    insertMember key value members = (key, value) :: members := by
  cases members with
  | nil => rfl
  | cons member rest =>
    obtain ⟨k, v⟩ := member
    rw [insertMember, if_neg (keyPrecedes_ne before), if_pos (by exact before)]

mutual

theorem sorted_eq_self : ∀ {value : Json}, isSorted value = true → sorted value = value
  | .null, _ | .bool _, _ | .integer _, _ | .float _, _ | .string _, _ => by simp [sorted]
  | .array _, h => congrArg array (sortedItems_eq_self h)
  | .object _, h => congrArg object (sortedMembers_eq_self h)

theorem sortedItems_eq_self : ∀ {items : List Json}, isSortedItems items = true →
    sortedItems items = items
  | [], _ => rfl
  | x :: xs, h => by
    rw [isSortedItems, Bool.and_eq_true] at h
    rw [sortedItems, sorted_eq_self h.1, sortedItems_eq_self h.2]

theorem sortedMembers_eq_self : ∀ {members : List (String × Json)},
    isSortedMembers members = true → sortedMembers members = members
  | [], _ => rfl
  | (key, value) :: rest, h => by
    rw [isSortedMembers, Bool.and_eq_true, Bool.and_eq_true] at h
    rw [sortedMembers, sorted_eq_self h.1.1, sortedMembers_eq_self h.2, insertMember_eq_cons h.1.2]

end

/-! ## Depth -/

theorem depthItems_le_iff {items : List Json} {n : Nat} :
    depthItems items ≤ n ↔ ∀ x ∈ items, x.depth ≤ n := by
  induction items with
  | nil => simp [depthItems]
  | cons x xs ih => rw [depthItems, Nat.max_le, ih, List.forall_mem_cons]

theorem depthMembers_le_iff {members : List (String × Json)} {n : Nat} :
    depthMembers members ≤ n ↔ ∀ member ∈ members, member.2.depth ≤ n := by
  induction members with
  | nil => simp [depthMembers]
  | cons member rest ih => rw [depthMembers, Nat.max_le, ih, List.forall_mem_cons]

theorem depthMembers_insertMember (key : String) (value : Json) (members : List (String × Json)) :
    depthMembers (insertMember key value members) ≤ max value.depth (depthMembers members) := by
  induction members with
  | nil => exact Nat.le_refl _
  | cons member rest ih =>
    obtain ⟨k, v⟩ := member
    rw [insertMember]
    split
    · exact Nat.le_max_right _ _
    split
    · exact Nat.le_refl _
    · simp only [depthMembers] at ih ⊢
      omega

mutual

theorem depth_sorted_le : ∀ value : Json, (sorted value).depth ≤ value.depth
  | .null | .bool _ | .integer _ | .float _ | .string _ => by simp [sorted]
  | .array items => Nat.succ_le_succ (depthItems_sortedItems_le items)
  | .object members => Nat.succ_le_succ (depthMembers_sortedMembers_le members)

theorem depthItems_sortedItems_le : ∀ items, depthItems (sortedItems items) ≤ depthItems items
  | [] => Nat.le_refl _
  | x :: xs => by
    have head := depth_sorted_le x
    have tail := depthItems_sortedItems_le xs
    simp only [sortedItems, depthItems]
    omega

theorem depthMembers_sortedMembers_le :
    ∀ members, depthMembers (sortedMembers members) ≤ depthMembers members
  | [] => Nat.le_refl _
  | (key, value) :: rest => by
    have head := depth_sorted_le value
    have tail := depthMembers_sortedMembers_le rest
    have whole := depthMembers_insertMember key (sorted value) (sortedMembers rest)
    simp only [sortedMembers, depthMembers] at whole ⊢
    omega

end

/-! ## Floats -/

mutual

/-- The floats in a value. -/
def floats : Json → List Binary64
  | .float x => [x]
  | .array items => floatsItems items
  | .object members => floatsMembers members
  | _ => []

def floatsItems : List Json → List Binary64
  | [] => []
  | x :: xs => floats x ++ floatsItems xs

def floatsMembers : List (String × Json) → List Binary64
  | [] => []
  | (_, value) :: rest => floats value ++ floatsMembers rest

end

theorem mem_floatsItems {items : List Json} {x : Binary64} :
    x ∈ floatsItems items ↔ ∃ item ∈ items, x ∈ item.floats := by
  induction items with
  | nil => simp [floatsItems]
  | cons item rest ih => simp [floatsItems, ih]

end Json

/-! ## Bags -/

namespace Bag

/-- A bag is the bag of its members. -/
theorem ofMembers_members (bag : Bag) : ofMembers bag.members = bag := by
  obtain ⟨members, ordered⟩ := bag
  simp only [ofMembers, Json.sortedMembers_eq_self ordered]

theorem depth_toJson_ofMembers_le (members : List (String × Json)) :
    (ofMembers members).toJson.depth ≤ (Json.object members).depth :=
  Nat.succ_le_succ (Json.depthMembers_sortedMembers_le members)

end Bag

end RobotProgram
