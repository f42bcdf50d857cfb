import RobotProgram.Json.Basic

/-!
# Parameter bags

A bag holds the parameters of an event or a command: named values of any shape, with the names in
order and none of them twice, at every level. Nothing looks inside a bag; bags are compared by
value and carried along.

## Main definitions

* `Bag`: sorted members.
* `Bag.ofMembers`: the bag of any members, of members of one name the last.
* `sameParameters`: equality by value of parameters that may be absent.
-/

namespace RobotProgram

/-- Named values, sorted by name at every level. -/
structure Bag where
  members : List (String × Json)
  sorted : Json.isSortedMembers members = true

namespace Bag

def ofMembers (members : List (String × Json)) : Bag :=
  ⟨Json.sortedMembers members, Json.isSortedMembers_sortedMembers members⟩

def toJson (bag : Bag) : Json := .object bag.members

/-- Equality of bags by value. -/
def same (a b : Bag) : Bool := Json.sameMembers a.members b.members

def size (bag : Bag) : Nat := bag.members.length

end Bag

/-- Parameters that may be absent; absent ones equal only absent ones. -/
abbrev Parameters := Option Bag

def Parameters.toJson : Parameters → Json
  | none => .null
  | some bag => bag.toJson

/-- Equality of parameters by value. -/
def sameParameters : Parameters → Parameters → Bool
  | none, none => true
  | some a, some b => a.same b
  | _, _ => false

end RobotProgram
