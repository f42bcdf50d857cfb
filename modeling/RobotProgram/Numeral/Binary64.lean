/-!
# Finite binary64 numbers

A finite number is a sign and a rank. The rank counts the representable magnitudes below it, so
ranks are ordered as magnitudes are, zero has rank `0`, and consecutive ranks are neighbours. All
arithmetic is exact arithmetic on naturals followed by one rounding to nearest, ties to even.

## Main definitions

* `Binary64`: sign and rank of a finite number.
* `Binary64.scaled`: the magnitude of a rank in units of `2 ^ -1074`.
* `Binary64.nearest`: the rank nearest to a quotient of naturals.
-/

namespace RobotProgram

/-- The first rank that no finite number has: eleven exponent bits, all of them set. -/
def Binary64.limit : Nat := 2047 * Nat.pow 2 52

/-- A finite binary64 number. Both zeros are kept apart. -/
structure Binary64 where
  negative : Bool
  rank : Nat
  finite : rank < Binary64.limit
  deriving DecidableEq

namespace Binary64

/-- The number of smallest steps in one. -/
def unit : Nat := Nat.pow 2 1074

/-- The magnitude of a rank, in smallest steps: a significand shifted by an exponent. -/
def scaled (rank : Nat) : Nat :=
  let exponent := rank / Nat.pow 2 52 - 1
  (rank - exponent * Nat.pow 2 52) * Nat.pow 2 exponent

/-- The quotient rounded to the nearest natural, a tie to the even one. -/
def roundQuotient (num den : Nat) : Nat :=
  let whole := num / den
  let rest := 2 * (num % den)
  if den < rest ∨ (rest = den ∧ whole % 2 = 1) then whole + 1 else whole

/--
The rank nearest to `num / den`, a tie going to the even one. A result of `limit` or more means
that the quotient is beyond every finite number.
-/
def nearest (num den : Nat) : Nat :=
  let steps := num * unit
  let exponent := (steps / den).log2 - 52
  exponent * Nat.pow 2 52 + roundQuotient steps (den * Nat.pow 2 exponent)

/-! ## Arithmetic on ranks -/

def ofNat (n : Nat) : Nat := nearest n 1

def mul (a b : Nat) : Nat := nearest (scaled a * scaled b) (unit * unit)

def div (a b : Nat) : Nat := nearest (scaled a) (scaled b)

/-- The rank of a power of ten, itself rounded. -/
def powerOfTen (k : Nat) : Nat := nearest (Nat.pow 10 k) 1

/-! ## Values -/

/-- The number of a rank, if it is finite. -/
def ofRank? (negative : Bool) (rank : Nat) : Option Binary64 :=
  if h : rank < limit then some ⟨negative, rank, h⟩ else none

def zero (negative : Bool) : Binary64 := ⟨negative, 0, by decide⟩

/-- Equality of values, for which both zeros are one number. -/
def same (a b : Binary64) : Bool :=
  a.rank = b.rank ∧ (a.negative = b.negative ∨ a.rank = 0)

@[simp] theorem same_refl (a : Binary64) : a.same a = true := by simp [same]

end Binary64

end RobotProgram
