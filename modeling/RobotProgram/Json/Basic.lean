import RobotProgram.Numeral.Binary64

/-!
# JSON values

A value keeps the members of an object in the order in which they were written. Numbers are of two
kinds that are never equal: integers of 64 bits, signed or unsigned, and binary64 numbers.

## Main definitions

* `Json`: values.
* `Json.same`: equality of values, for which `0.0` and `-0.0` are one number.
* `Json.sorted`: objects with their keys in order, of members of one key the last.
* `Json.Sorted`: the values that `Json.sorted` leaves alone.
* `Json.depth`: how many containers are open at once while a value is written.
-/

namespace RobotProgram

/-- The integers that fit 64 bits, with or without a sign. -/
structure Integer where
  val : Int
  lower : -0x8000000000000000 ≤ val
  upper : val < 0x10000000000000000
  deriving DecidableEq

/-- The integer of a value that fits. -/
def Integer.ofInt? (i : Int) : Option Integer :=
  if h : -0x8000000000000000 ≤ i ∧ i < 0x10000000000000000 then some ⟨i, h.1, h.2⟩ else none

inductive Json where
  | null
  | bool (value : Bool)
  | integer (value : Integer)
  | float (value : Binary64)
  | string (value : String)
  | array (items : List Json)
  | object (members : List (String × Json))

namespace Json

instance : Inhabited Json := ⟨.null⟩

/-- The natural as a number; one beyond 64 bits has no integer and is written as text. -/
def ofNat (n : Nat) : Json :=
  match Integer.ofInt? n with
  | some i => .integer i
  | none => .string (toString n)

/-! ## Equality of values -/

mutual

/-- Equality of values: integers and floats are never equal, both zeros are. -/
def same : Json → Json → Bool
  | .null, .null => true
  | .bool a, .bool b => a == b
  | .integer a, .integer b => a.val == b.val
  | .float a, .float b => a.same b
  | .string a, .string b => a == b
  | .array xs, .array ys => sameItems xs ys
  | .object xs, .object ys => sameMembers xs ys
  | _, _ => false

def sameItems : List Json → List Json → Bool
  | [], [] => true
  | x :: xs, y :: ys => same x y && sameItems xs ys
  | _, _ => false

def sameMembers : List (String × Json) → List (String × Json) → Bool
  | [], [] => true
  | (j, x) :: xs, (k, y) :: ys => j == k && same x y && sameMembers xs ys
  | _, _ => false

end

/-! ## Sorted objects -/

/-- Keys are ordered by their code points, which is the order of their UTF-8 bytes. -/
def keyBefore (a b : String) : Bool := decide (a.toList < b.toList)

/-- Adds a member to sorted members, unless its key is there. -/
def insertMember (key : String) (value : Json) : List (String × Json) → List (String × Json)
  | [] => [(key, value)]
  | (k, v) :: rest =>
    if key = k then (k, v) :: rest
    else if keyBefore key k then (key, value) :: (k, v) :: rest
    else (k, v) :: insertMember key value rest

mutual

/-- The value with the members of all its objects in order; of members of one key the last stays. -/
def sorted : Json → Json
  | .array items => .array (sortedItems items)
  | .object members => .object (sortedMembers members)
  | value => value

def sortedItems : List Json → List Json
  | [] => []
  | x :: xs => sorted x :: sortedItems xs

def sortedMembers : List (String × Json) → List (String × Json)
  | [] => []
  | (key, value) :: rest => insertMember key (sorted value) (sortedMembers rest)

end

/-- Whether a key comes before the first of some members. -/
def keyPrecedes (key : String) : List (String × Json) → Bool
  | [] => true
  | (k, _) :: _ => keyBefore key k

mutual

/-- Whether all objects of a value have their keys in strictly increasing order. -/
def isSorted : Json → Bool
  | .array items => isSortedItems items
  | .object members => isSortedMembers members
  | _ => true

def isSortedItems : List Json → Bool
  | [] => true
  | x :: xs => isSorted x && isSortedItems xs

def isSortedMembers : List (String × Json) → Bool
  | [] => true
  | (key, value) :: rest => isSorted value && keyPrecedes key rest && isSortedMembers rest

end

theorem keyBefore_of_not {a b : String} (ne : a ≠ b) (h : ¬ keyBefore a b) : keyBefore b a := by
  simp only [keyBefore, decide_eq_true_eq] at h ⊢
  exact Decidable.byContradiction fun h' =>
    ne (String.toList_inj.mp (List.le_antisymm (List.not_lt.mp h') (List.not_lt.mp h)))

theorem keyPrecedes_insertMember {k key : String} {value : Json} {ms : List (String × Json)}
    (before : keyBefore k key) (h : keyPrecedes k ms) :
    keyPrecedes k (insertMember key value ms) := by
  cases ms with
  | nil => simpa [insertMember, keyPrecedes] using before
  | cons m rest =>
    obtain ⟨k', v⟩ := m
    simp only [keyPrecedes] at h
    simp only [insertMember]
    split
    · simpa [keyPrecedes] using h
    · split <;> simp_all [keyPrecedes]

theorem isSortedMembers_insertMember {key : String} {value : Json} (hv : isSorted value) :
    ∀ {ms : List (String × Json)}, isSortedMembers ms → isSortedMembers (insertMember key value ms)
  | [], _ => by simp [insertMember, isSortedMembers, keyPrecedes, hv]
  | (k, v) :: rest, h => by
    simp only [isSortedMembers, Bool.and_eq_true] at h
    obtain ⟨⟨hk, hp⟩, hr⟩ := h
    simp only [insertMember]
    split
    · simp [isSortedMembers, hk, hp, hr]
    · split
      · simp_all [isSortedMembers, keyPrecedes]
      · rename_i ne nb
        simp only [isSortedMembers, Bool.and_eq_true]
        exact ⟨⟨hk, keyPrecedes_insertMember (keyBefore_of_not ne nb) hp⟩,
          isSortedMembers_insertMember hv hr⟩

mutual

theorem isSorted_sorted : ∀ value : Json, isSorted (sorted value) = true
  | .null | .bool _ | .integer _ | .float _ | .string _ => by simp [sorted, isSorted]
  | .array items => by simpa [sorted, isSorted] using isSortedItems_sortedItems items
  | .object members => by simpa [sorted, isSorted] using isSortedMembers_sortedMembers members

theorem isSortedItems_sortedItems : ∀ items, isSortedItems (sortedItems items) = true
  | [] => rfl
  | x :: xs => by
    simp [sortedItems, isSortedItems, isSorted_sorted x, isSortedItems_sortedItems xs]

theorem isSortedMembers_sortedMembers : ∀ members, isSortedMembers (sortedMembers members) = true
  | [] => rfl
  | (_, value) :: rest =>
    isSortedMembers_insertMember (isSorted_sorted value) (isSortedMembers_sortedMembers rest)

end

/-! ## Depth -/

mutual

/-- How many containers are open at once while the value is written. -/
def depth : Json → Nat
  | .array items => depthItems items + 1
  | .object members => depthMembers members + 1
  | _ => 0

def depthItems : List Json → Nat
  | [] => 0
  | x :: xs => max (depth x) (depthItems xs)

def depthMembers : List (String × Json) → Nat
  | [] => 0
  | (_, value) :: rest => max (depth value) (depthMembers rest)

end

/-! ## Access -/

/-- The value of a member: of members of one key the last. -/
def get? : Json → String → Option Json
  | .object members, key => (members.reverse.find? (·.1 == key)).map (·.2)
  | _, _ => none

end Json

end RobotProgram
