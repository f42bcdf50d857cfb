import RobotProgram.Bag

/-!
# Equality by value

Equality of numbers, values and parameters by value is symmetric and transitive, at every depth of
nesting.
-/

namespace RobotProgram

namespace Binary64

theorem same_iff {a b : Binary64} :
    a.same b = true ↔ a.rank = b.rank ∧ (a.negative = b.negative ∨ a.rank = 0) := by
  simp [same]

theorem same_comm (a b : Binary64) : a.same b = b.same a := by
  rw [Bool.eq_iff_iff, same_iff, same_iff]
  constructor <;> rintro ⟨hr, hn⟩ <;> exact ⟨hr.symm, hn.imp Eq.symm fun h => by omega⟩

theorem same_trans {a b c : Binary64} (hab : a.same b) (hbc : b.same c) : a.same c := by
  rw [same_iff] at hab hbc ⊢
  refine ⟨hab.1.trans hbc.1, ?_⟩
  rcases hab.2 with hn | hz
  · exact hbc.2.imp hn.trans fun hz => hab.1.trans hz
  · exact .inr hz

end Binary64

namespace Json

mutual

theorem same_comm : ∀ a b : Json, same a b = same b a
  | .null, b => by cases b <;> rfl
  | .bool _, b => by cases b <;> simp [same, Bool.beq_comm]
  | .integer _, b => by cases b <;> simp [same, Bool.beq_comm]
  | .float x, b => by cases b <;> simp [same, Binary64.same_comm x]
  | .string _, b => by cases b <;> simp [same, Bool.beq_comm]
  | .array xs, b => by cases b <;> simp [same, sameItems_comm xs]
  | .object xs, b => by cases b <;> simp [same, sameMembers_comm xs]

theorem sameItems_comm : ∀ xs ys : List Json, sameItems xs ys = sameItems ys xs
  | [], ys => by cases ys <;> rfl
  | x :: xs, ys => by cases ys <;> simp [sameItems, same_comm x, sameItems_comm xs]

theorem sameMembers_comm :
    ∀ xs ys : List (String × Json), sameMembers xs ys = sameMembers ys xs
  | [], ys => by cases ys <;> rfl
  | (j, x) :: xs, ys => by
    cases ys <;> simp [sameMembers, same_comm x, sameMembers_comm xs, Bool.beq_comm]

end

mutual

theorem same_trans : ∀ {a b c : Json}, same a b → same b c → same a c
  | .null, b, c, hab, hbc => by cases b <;> cases c <;> simp_all [same]
  | .bool _, b, c, hab, hbc => by cases b <;> cases c <;> simp_all [same]
  | .integer _, b, c, hab, hbc => by cases b <;> cases c <;> simp_all [same]
  | .float _, b, c, hab, hbc => by
    cases b <;> cases c <;> simp only [same, Bool.false_eq_true] at hab hbc ⊢
    exact Binary64.same_trans hab hbc
  | .string _, b, c, hab, hbc => by cases b <;> cases c <;> simp_all [same]
  | .array _, b, c, hab, hbc => by
    cases b <;> cases c <;> simp only [same, Bool.false_eq_true] at hab hbc ⊢
    exact sameItems_trans hab hbc
  | .object _, b, c, hab, hbc => by
    cases b <;> cases c <;> simp only [same, Bool.false_eq_true] at hab hbc ⊢
    exact sameMembers_trans hab hbc

theorem sameItems_trans :
    ∀ {xs ys zs : List Json}, sameItems xs ys → sameItems ys zs → sameItems xs zs
  | [], ys, zs, hxy, hyz => by cases ys <;> cases zs <;> simp_all [sameItems]
  | x :: xs, ys, zs, hxy, hyz => by
    cases ys <;> cases zs <;>
      simp only [sameItems, Bool.and_eq_true, Bool.false_eq_true] at hxy hyz ⊢
    exact ⟨same_trans hxy.1 hyz.1, sameItems_trans hxy.2 hyz.2⟩

theorem sameMembers_trans : ∀ {xs ys zs : List (String × Json)},
    sameMembers xs ys → sameMembers ys zs → sameMembers xs zs
  | [], ys, zs, hxy, hyz => by cases ys <;> cases zs <;> simp_all [sameMembers]
  | (j, x) :: xs, ys, zs, hxy, hyz => by
    cases ys <;> cases zs <;>
      simp only [sameMembers, Bool.and_eq_true, beq_iff_eq, Bool.false_eq_true] at hxy hyz ⊢
    exact ⟨⟨hxy.1.1.trans hyz.1.1, same_trans hxy.1.2 hyz.1.2⟩, sameMembers_trans hxy.2 hyz.2⟩

end

end Json

theorem sameParameters_comm (a b : Parameters) : sameParameters a b = sameParameters b a := by
  cases a <;> cases b <;> simp [sameParameters, Bag.same, Json.sameMembers_comm]

theorem sameParameters_trans {a b c : Parameters} (hab : sameParameters a b)
    (hbc : sameParameters b c) : sameParameters a c := by
  cases a <;> cases b <;> cases c <;> simp only [sameParameters, Bool.false_eq_true] at hab hbc ⊢
  exact Json.sameMembers_trans hab hbc

@[simp] theorem sameParameters_none_left {b : Parameters} :
    sameParameters none b = b.isNone := by
  cases b <;> rfl

end RobotProgram
