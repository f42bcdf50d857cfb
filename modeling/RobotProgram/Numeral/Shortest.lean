import RobotProgram.Numeral.Binary64

/-!
# Shortest decimals

The shortest decimal of a number is the one with the fewest digits that rounds back to it; of two
such decimals of one length it is the nearer one, and of two equally near ones the even one.

## Main definitions

* `Decimal`: an integer number of units of a power of ten.
* `Decimal.shortest`: the shortest decimal of a rank.
-/

namespace RobotProgram

/-- The value `digits * 10 ^ exponent`. -/
structure Decimal where
  digits : Nat
  exponent : Int
  deriving DecidableEq

namespace Decimal

/-- How many decimal digits a natural has. -/
def length (n : Nat) : Nat := (Nat.toDigits 10 n).length

/-- The rank that a decimal rounds to. -/
def rank (d : Decimal) : Nat :=
  match d.exponent with
  | .ofNat k => Binary64.nearest (d.digits * Nat.pow 10 k) 1
  | .negSucc k => Binary64.nearest d.digits (Nat.pow 10 (k + 1))

/-- The power of ten that leads a positive quotient: `10 ^ p ≤ num / den < 10 ^ (p + 1)`. -/
def leading (num den : Nat) : Int :=
  if den ≤ num then (length (num / den) : Int) - 1 else -(length ((den - 1) / num) : Int)

/-- A quotient counted in units of a power of ten. -/
def inUnits (num den : Nat) : Int → Nat × Nat
  | .ofNat k => (num, den * Nat.pow 10 k)
  | .negSucc k => (num * Nat.pow 10 (k + 1), den)

/--
Of the two multiples of `10 ^ exponent` around the magnitude of `rank`, the one that rounds to it;
of two that do, the nearer.
-/
def onGrid? (rank : Nat) (exponent : Int) : Option Decimal :=
  let (num, den) := inUnits (Binary64.scaled rank) Binary64.unit exponent
  let below : Decimal := ⟨num / den, exponent⟩
  let above : Decimal := ⟨num / den + 1, exponent⟩
  let rest := 2 * (num % den)
  match below.rank == rank, above.rank == rank with
  | true, true =>
    some (if rest < den ∨ (rest = den ∧ below.digits % 2 = 0) then below else above)
  | true, false => some below
  | false, true => some above
  | false, false => none

/-- Drops trailing zeros of the digits, at most `fuel` of them. -/
def trim : Nat → Decimal → Decimal
  | 0, d => d
  | fuel + 1, d => if d.digits % 10 = 0 then trim fuel ⟨d.digits / 10, d.exponent + 1⟩ else d

/--
The shortest decimal of a positive rank. Seventeen digits always suffice; the exact decimal stands
behind the search.
-/
def shortest (rank : Nat) : Decimal :=
  let lead := leading (Binary64.scaled rank) Binary64.unit
  match (List.range 17).findSome? fun (n : Nat) => onGrid? rank (lead - n) with
  | some d => trim 1 d
  | none => ⟨Binary64.scaled rank * Nat.pow 5 1074, -1074⟩

end Decimal

end RobotProgram
