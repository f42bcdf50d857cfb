import RobotProgram.Json.Basic
import RobotProgram.Numeral.Shortest

/-!
# Written JSON

Two written forms of a value: on one line without blanks, and spread over lines with two blanks a
level. Both write strings and numbers in the same way.

## Main definitions

* `Json.compact`: the form on one line.
* `Json.pretty`: the form over several lines.
-/

namespace RobotProgram.Json

/-! ## Scalars -/

/-- How a character is written inside a string. -/
def escaped (c : Char) : List Char :=
  if c = '"' then ['\\', '"']
  else if c = '\\' then ['\\', '\\']
  else if c = '\x08' then ['\\', 'b']
  else if c = '\x0c' then ['\\', 'f']
  else if c = '\n' then ['\\', 'n']
  else if c = '\r' then ['\\', 'r']
  else if c = '\t' then ['\\', 't']
  else if c.toNat < 32 then
    ['\\', 'u', '0', '0', Nat.digitChar (c.toNat / 16), Nat.digitChar (c.toNat % 16)]
  else [c]

def stringText (s : String) : List Char := '"' :: s.toList.flatMap escaped ++ ['"']

def natText (n : Nat) : List Char := Nat.toDigits 10 n

def intText : Int → List Char
  | .ofNat n => natText n
  | .negSucc n => '-' :: natText (n + 1)

/-- Decimals are written out when their leading power of ten lies between these two. -/
def writtenOut : Int × Int := (-5, 15)

/--
A positive decimal: written out with at least one place behind the point, or as one leading digit,
further places and the signed power of ten.
-/
def decimalText (d : Decimal) : List Char :=
  let digits := natText d.digits
  let lead := d.exponent + digits.length - 1
  if writtenOut.1 ≤ lead ∧ lead ≤ writtenOut.2 then
    if 0 ≤ d.exponent then digits ++ List.replicate d.exponent.toNat '0' ++ ['.', '0']
    else if 0 ≤ lead then
      digits.take (lead.toNat + 1) ++ '.' :: digits.drop (lead.toNat + 1)
    else '0' :: '.' :: List.replicate (-lead - 1).toNat '0' ++ digits
  else
    let mark := if lead < 0 then 'e' :: intText lead else 'e' :: '+' :: intText lead
    match digits with
    | [] => mark
    | [c] => c :: mark
    | c :: rest => c :: '.' :: rest ++ mark

/-- The shortest decimal of a number, with its sign. -/
def floatText (x : Binary64) : List Char :=
  let digits := if x.rank = 0 then ['0', '.', '0'] else decimalText (Decimal.shortest x.rank)
  if x.negative then '-' :: digits else digits

def boolText (b : Bool) : List Char :=
  if b then ['t', 'r', 'u', 'e'] else ['f', 'a', 'l', 's', 'e']

/-! ## On one line -/

mutual

/-- The value on one line, without blanks. -/
def compact : Json → List Char
  | .null => ['n', 'u', 'l', 'l']
  | .bool b => boolText b
  | .integer i => intText i.val
  | .float x => floatText x
  | .string s => stringText s
  | .array [] => ['[', ']']
  | .array (x :: xs) => '[' :: compact x ++ compactItems xs
  | .object [] => ['\x7b', '\x7d']
  | .object ((key, value) :: rest) =>
    '\x7b' :: stringText key ++ ':' :: compact value ++ compactMembers rest

/-- The items after the first, each with its comma, and the closing bracket. -/
def compactItems : List Json → List Char
  | [] => [']']
  | x :: xs => ',' :: compact x ++ compactItems xs

def compactMembers : List (String × Json) → List Char
  | [] => ['\x7d']
  | (key, value) :: rest => ',' :: stringText key ++ ':' :: compact value ++ compactMembers rest

end

/-! ## Over several lines -/

/-- A new line at a level. -/
def newline (level : Nat) : List Char := '\n' :: List.replicate (2 * level) ' '

mutual

/-- The value over several lines, its first line at `level`. -/
def pretty (level : Nat) : Json → List Char
  | .null => ['n', 'u', 'l', 'l']
  | .bool b => boolText b
  | .integer i => intText i.val
  | .float x => floatText x
  | .string s => stringText s
  | .array [] => ['[', ']']
  | .array (x :: xs) =>
    '[' :: newline (level + 1) ++ pretty (level + 1) x ++ prettyItems level xs
  | .object [] => ['\x7b', '\x7d']
  | .object ((key, value) :: rest) =>
    '\x7b' :: newline (level + 1) ++ stringText key ++ ':' :: ' ' :: pretty (level + 1) value
      ++ prettyMembers level rest

/-- The items after the first, each with its comma, and the closing bracket. -/
def prettyItems (level : Nat) : List Json → List Char
  | [] => newline level ++ [']']
  | x :: xs => ',' :: newline (level + 1) ++ pretty (level + 1) x ++ prettyItems level xs

def prettyMembers (level : Nat) : List (String × Json) → List Char
  | [] => newline level ++ ['\x7d']
  | (key, value) :: rest =>
    ',' :: newline (level + 1) ++ stringText key ++ ':' :: ' ' :: pretty (level + 1) value
      ++ prettyMembers level rest

end

end RobotProgram.Json
