import RobotProgram.Json.Fault

/-!
# Reading JSON

Everything here reads from the front of a text and gives what was read together with the rest. A
text is read once from left to right, and the first fault is the answer. Containers may be open up
to a given depth; a value that nobody asked for is skipped without that limit.

Loops count down the characters that are left, so that running out of the count means that the text
has ended.

## Main definitions

* `Json.number`, `Json.stringRest`, `Json.scalar`: numbers, strings, and all that opens no container.
* `Json.items`, `Json.fields`: the loops over the items of a list and the members of an object.
* `Json.value`: any value.
* `Json.skip`: passes over a value.
-/

namespace RobotProgram.Json

/-- Reading from the front of a text gives a result, usually with the rest, or a fault. -/
abbrev Reading : Type → Type := Except Fault

def isBlank (c : Char) : Bool := c = ' ' || c = '\n' || c = '\t' || c = '\r'

def skipBlank (text : List Char) : List Char := text.dropWhile isBlank

/-- Reads given letters. -/
def word : List Char → List Char → Reading (List Char)
  | [], text => .ok text
  | _ :: _, [] => .error (.ended .value)
  | c :: cs, d :: text => if d = c then word cs text else .error .expectedWord

/-! ## Strings -/

def hexValue? (c : Char) : Option Nat :=
  if c.isDigit then some (c.toNat - '0'.toNat)
  else if 'a' ≤ c ∧ c ≤ 'f' then some (c.toNat - 'a'.toNat + 10)
  else if 'A' ≤ c ∧ c ≤ 'F' then some (c.toNat - 'A'.toNat + 10)
  else none

/-- Reads four hexadecimal digits. A text of fewer than four bytes has ended too early for them. -/
def fourHex (text : List Char) : Reading (Nat × List Char) :=
  match text with
  | a :: b :: c :: d :: rest =>
    match hexValue? a, hexValue? b, hexValue? c, hexValue? d with
    | some a, some b, some c, some d => .ok (((a * 16 + b) * 16 + c) * 16 + d, rest)
    | _, _, _, _ => .error .invalidEscape
  | _ =>
    if 4 ≤ text.foldl (fun size c => size + c.utf8Size) 0 then .error .invalidEscape else .error (.ended .string)

def isTrailing (n : Nat) : Bool := 0xDC00 ≤ n && n ≤ 0xDFFF

def isLeading (n : Nat) : Bool := 0xD800 ≤ n && n ≤ 0xDBFF

/-- Reads the code of a character after a backslash and `u`; a leading surrogate needs its partner. -/
def codeEscape (text : List Char) : Reading (Char × List Char) := do
  let (n, rest) ← fourHex text
  if isTrailing n then .error .loneSurrogate
  else if !isLeading n then .ok (Char.ofNat n, rest)
  else
    match rest with
    | [] => .error (.ended .string)
    | '\\' :: [] => .error (.ended .string)
    | '\\' :: 'u' :: rest => do
      let (m, rest) ← fourHex rest
      if isTrailing m then .ok (Char.ofNat (0x10000 + (n - 0xD800) * 0x400 + (m - 0xDC00)), rest)
      else .error .loneSurrogate
    | _ => .error .unfinishedSurrogates

/-- Reads what follows a backslash. -/
def escape : List Char → Reading (Char × List Char)
  | [] => .error (.ended .string)
  | '"' :: rest => .ok ('"', rest)
  | '\\' :: rest => .ok ('\\', rest)
  | '/' :: rest => .ok ('/', rest)
  | 'b' :: rest => .ok ('\x08', rest)
  | 'f' :: rest => .ok ('\x0c', rest)
  | 'n' :: rest => .ok ('\n', rest)
  | 'r' :: rest => .ok ('\r', rest)
  | 't' :: rest => .ok ('\t', rest)
  | 'u' :: rest => codeEscape rest
  | _ => .error .invalidEscape

/-- Reads the characters of a string up to the closing quotation mark. -/
def stringRest : Nat → List Char → Reading (List Char × List Char)
  | 0, _ | _ + 1, [] => .error (.ended .string)
  | _ + 1, '"' :: rest => .ok ([], rest)
  | left + 1, '\\' :: rest => do
    let (c, rest) ← escape rest
    let (cs, rest) ← stringRest left rest
    .ok (c :: cs, rest)
  | left + 1, c :: rest =>
    if c.toNat < 32 then .error .controlCharacter
    else do
      let (cs, rest) ← stringRest left rest
      .ok (c :: cs, rest)

/-- Reads a string whose opening quotation mark has been read. -/
def quotedRest (text : List Char) : Reading (String × List Char) := do
  let (cs, rest) ← stringRest (text.length + 1) text
  .ok (String.ofList cs, rest)

/-! ## Numbers -/

/-- Adds digits to a significand as long as it fits 64 bits; also how many were added. -/
def addDigits : Nat → List Char → Nat × Nat × List Char
  | sig, [] => (sig, 0, [])
  | sig, c :: rest =>
    let next := sig * 10 + (c.toNat - '0'.toNat)
    if c.isDigit && next < 0x10000000000000000 then
      let (sig, count, rest) := addDigits next rest
      (sig, count + 1, rest)
    else (sig, 0, c :: rest)

/-- Reads the digits before the point: those that fit 64 bits, and how many more there are. -/
def wholePart : List Char → Reading (Nat × Nat × List Char)
  | [] => .error (.ended .value)
  | '0' :: rest =>
    if (rest.head?.any Char.isDigit) then .error .invalidNumber else .ok (0, 0, rest)
  | c :: rest =>
    if c.isDigit then
      let (sig, _, rest) := addDigits 0 (c :: rest)
      .ok (sig, (rest.takeWhile Char.isDigit).length, rest.dropWhile Char.isDigit)
    else .error .invalidNumber

/--
Reads a point and the digits behind it, if there is one. The digits that still fit are added to the
significand and counted, the others have no effect.
-/
def fractionPart (sig : Nat) : List Char → Reading (Nat × Option Nat × List Char)
  | '.' :: [] => .error (.ended .value)
  | '.' :: c :: rest =>
    if c.isDigit then
      let (sig, count, rest) := addDigits sig (c :: rest)
      .ok (sig, some count, rest.dropWhile Char.isDigit)
    else .error .invalidNumber
  | text => .ok (sig, none, text)

/-- Reads the digits of an exponent. -/
def exponentDigits (negative : Bool) : List Char → Reading (Option Int × List Char)
  | [] => .error (.ended .value)
  | c :: rest =>
    if c.isDigit then
      let text := c :: rest
      let n := (text.takeWhile Char.isDigit).foldl (fun n c => n * 10 + (c.toNat - '0'.toNat)) 0
      .ok (some (if negative then -n else n), text.dropWhile Char.isDigit)
    else .error .invalidNumber

/-- Reads an exponent, if there is one. -/
def exponentPart : List Char → Reading (Option Int × List Char)
  | 'e' :: '-' :: rest | 'E' :: '-' :: rest => exponentDigits true rest
  | 'e' :: '+' :: rest | 'E' :: '+' :: rest => exponentDigits false rest
  | 'e' :: rest | 'E' :: rest => exponentDigits false rest
  | text => .ok (none, text)

/-- The largest power of ten that is a finite number. -/
def largestPower : Nat := 308

/--
Divides a rank by a power of ten in steps of the largest one. From any number of 64 bits at most
three steps lead to zero.
-/
def shrink : Nat → Nat → Nat → Nat
  | 0, _, _ => 0
  | left + 1, rank, k =>
    if k ≤ largestPower then Binary64.div rank (Binary64.powerOfTen k)
    else if rank = 0 then 0
    else shrink left (Binary64.div rank (Binary64.powerOfTen largestPower)) (k - largestPower)

/--
The rank of `sig * 10 ^ exponent`: the significand is rounded, the power of ten is rounded, and so is
their product or quotient. There is none for a product beyond the finite numbers.
-/
def scaleSignificand (sig : Nat) : Int → Option Nat
  | .ofNat k =>
    if k ≤ largestPower then some (Binary64.mul (Binary64.ofNat sig) (Binary64.powerOfTen k))
    else if sig = 0 then some 0
    else none
  | .negSucc k => some (shrink 4 (Binary64.ofNat sig) (k + 1))

/--
The number of a plain run of digits: an integer if it fits 64 bits with its sign, otherwise a float;
minus zero is a float.
-/
def plainNumber (negative : Bool) (sig : Nat) : Option Json :=
  if negative then
    if sig = 0 then some (.float (Binary64.zero true))
    else
      match Integer.ofInt? (-sig) with
      | some i => some (.integer i)
      | none => (Binary64.ofRank? true (Binary64.ofNat sig)).map .float
  else (Integer.ofInt? sig).map .integer

/-- Reads a number whose sign has been read. -/
def number (negative : Bool) (text : List Char) : Reading (Json × List Char) := do
  let (sig, surplus, rest) ← wholePart text
  let (sig, places, rest) ← fractionPart sig rest
  let (shift, rest) ← exponentPart rest
  let result :=
    if surplus = 0 ∧ places = none ∧ shift = none then plainNumber negative sig
    else do
      let rank ← scaleSignificand sig (surplus - (places.getD 0 : Nat) + shift.getD 0)
      (Binary64.ofRank? negative rank).map .float
  match result with
  | some n => .ok (n, rest)
  | none => .error .numberOutOfRange

/-! ## Values -/

/-- Reads a value that opens no container, from a text that starts with no blank. -/
def scalar : List Char → Reading (Json × List Char)
  | [] => .error (.ended .value)
  | 'n' :: rest => do .ok (.null, ← word ['u', 'l', 'l'] rest)
  | 't' :: rest => do .ok (.bool true, ← word ['r', 'u', 'e'] rest)
  | 'f' :: rest => do .ok (.bool false, ← word ['a', 'l', 's', 'e'] rest)
  | '-' :: rest => number true rest
  | '"' :: rest => do
    let (s, rest) ← quotedRest rest
    .ok (.string s, rest)
  | c :: rest => if c.isDigit then number false (c :: rest) else .error .expectedValue

/-- What comes next in a list: its end, and the text behind it, or an item. -/
inductive NextItem where
  | done (rest : List Char)
  | item (text : List Char)

/-- Looks for the next item of a list; all items but the first follow a comma. -/
def nextItem (first : Bool) (text : List Char) : Reading NextItem :=
  match skipBlank text with
  | [] => .error (.ended .list)
  | ']' :: rest => .ok (.done rest)
  | c :: rest =>
    if first then .ok (.item (c :: rest))
    else if c = ',' then
      match skipBlank rest with
      | [] => .error (.ended .value)
      | ']' :: _ => .error .trailingComma
      | text => .ok (.item text)
    else .error .expectedCommaOrBracket

/-- Reads the items of a list whose bracket has been read, and the closing bracket. -/
def items {α : Type} (read : List Char → Reading (α × List Char)) :
    Nat → Bool → List Char → Reading (List α × List Char)
  | 0, _, _ => .error (.ended .list)
  | left + 1, first, text => do
    match ← nextItem first text with
    | .done rest => .ok ([], rest)
    | .item text =>
      let (x, rest) ← read text
      let (xs, rest) ← items read left false rest
      .ok (x :: xs, rest)

/-- What comes next in an object: its end, and the text behind it, or the key of a member. -/
inductive NextKey where
  | done (rest : List Char)
  | key (name : String) (rest : List Char)

/-- Reads a key, from a text that starts with no blank. -/
def memberKey : List Char → Reading NextKey
  | [] => .error (.ended .value)
  | '"' :: rest => do
    let (name, rest) ← quotedRest rest
    .ok (.key name rest)
  | '\x7d' :: _ => .error .trailingComma
  | _ => .error .keyNotString

/-- Looks for the next member of an object; all members but the first follow a comma. -/
def nextKey (first : Bool) (text : List Char) : Reading NextKey :=
  match skipBlank text with
  | [] => .error (.ended .object)
  | '\x7d' :: rest => .ok (.done rest)
  | c :: rest =>
    if first then memberKey (c :: rest)
    else if c = ',' then memberKey (skipBlank rest)
    else .error .expectedCommaOrBrace

/-- Reads the colon between a key and its value. -/
def colon (text : List Char) : Reading (List Char) :=
  match skipBlank text with
  | [] => .error (.ended .object)
  | ':' :: rest => .ok rest
  | _ => .error .expectedColon

/--
Reads the members of an object whose brace has been read, and the closing brace. What a member does
to the state is up to `member`, which gets the key and the text from the colon on.
-/
def fields {σ : Type} (member : σ → String → List Char → Reading (σ × List Char)) :
    Nat → Bool → σ → List Char → Reading (σ × List Char)
  | 0, _, _, _ => .error (.ended .object)
  | left + 1, first, state, text => do
    match ← nextKey first text with
    | .done rest => .ok (state, rest)
    | .key name rest =>
      let (state, rest) ← member state name rest
      fields member left false state rest

/-- Reads any value; `depth` more containers may be opened. -/
def value (depth : Nat) (text : List Char) : Reading (Json × List Char) :=
  match skipBlank text with
  | '[' :: rest =>
    match depth with
    | 0 => .error .tooDeep
    | depth + 1 => do
      let (xs, rest) ← items (value depth) (rest.length + 1) true rest
      .ok (.array xs, rest)
  | '\x7b' :: rest =>
    match depth with
    | 0 => .error .tooDeep
    | depth + 1 => do
      let member := fun members name text => do
        let rest ← colon text
        let (x, rest) ← value depth rest
        .ok (members ++ [(name, x)], rest)
      let (members, rest) ← fields member (rest.length + 1) true [] rest
      .ok (.object members, rest)
  | text => scalar text

/-! ## Skipped values -/

/-- Passes over a string whose opening quotation mark has been read; any code may stand in it. -/
def skipString : Nat → List Char → Reading (List Char)
  | 0, _ | _ + 1, [] | _ + 1, '\\' :: [] => .error (.ended .string)
  | _ + 1, '"' :: rest => .ok rest
  | left + 1, '\\' :: 'u' :: rest => do
    let (_, rest) ← fourHex rest
    skipString left rest
  | left + 1, '\\' :: c :: rest =>
    if c ∈ ['"', '\\', '/', 'b', 'f', 'n', 'r', 't'] then skipString left rest
    else .error .invalidEscape
  | left + 1, c :: rest =>
    if c.toNat < 32 then .error .controlCharacter else skipString left rest

/-- Passes over at least one digit. -/
def skipDigits (text : List Char) : Reading (List Char) :=
  if text.head?.any Char.isDigit then .ok (text.dropWhile Char.isDigit) else .error .invalidNumber

def skipExponent : List Char → Reading (List Char)
  | 'e' :: '-' :: rest | 'E' :: '-' :: rest => skipDigits rest
  | 'e' :: '+' :: rest | 'E' :: '+' :: rest => skipDigits rest
  | 'e' :: rest | 'E' :: rest => skipDigits rest
  | text => .ok text

/-- Passes over a number whose sign has been read. -/
def skipNumber (text : List Char) : Reading (List Char) := do
  let rest ←
    match text with
    | '0' :: rest =>
      if rest.head?.any Char.isDigit then .error Fault.invalidNumber else .ok rest
    | text => skipDigits text
  match rest with
  | '.' :: rest => skipExponent (← skipDigits rest)
  | rest => skipExponent rest

/-- Passes over a value that opens no container, from a text that starts with no blank. -/
def skipScalar : List Char → Reading (List Char)
  | [] => .error (.ended .value)
  | 'n' :: rest => word ['u', 'l', 'l'] rest
  | 't' :: rest => word ['r', 'u', 'e'] rest
  | 'f' :: rest => word ['a', 'l', 's', 'e'] rest
  | '-' :: rest => skipNumber rest
  | '"' :: rest => skipString (rest.length + 1) rest
  | c :: rest => if c.isDigit then skipNumber (c :: rest) else .error .expectedValue

/-- A container that is open while a value is skipped. -/
inductive Frame where
  | list | object
  deriving DecidableEq

def Frame.closing : Frame → Char
  | .list => ']'
  | .object => '\x7d'

def Frame.unfinished : Frame → Fault
  | .list => .ended .list
  | .object => .ended .object

def Frame.expected : Frame → Fault
  | .list => .expectedCommaOrBracket
  | .object => .expectedCommaOrBrace

/-- Passes over closing brackets up to the comma before the next item, and drops what they close. -/
def closeFrames : List Frame → List Char → Reading (List Frame × List Char)
  | [], text => .ok ([], text)
  | frame :: frames, text =>
    match skipBlank text with
    | [] => .error frame.unfinished
    | c :: rest =>
      if c = ',' then .ok (frame :: frames, rest)
      else if c = frame.closing then closeFrames frames rest
      else .error frame.expected

/-- Passes over what stands before an item of the innermost container: in an object, its key. -/
def skipKey : List Frame → List Char → Reading (List Char)
  | .object :: _, text =>
    match skipBlank text with
    | [] => .error (.ended .object)
    | '"' :: rest => do colon (← skipString (rest.length + 1) rest)
    | _ => .error .keyNotString
  | _, text => .ok text

/-- Goes on after a value, to the next item of a container that is still open. -/
def afterValue (frames : List Frame) (text : List Char) : Reading (List Frame × List Char) := do
  let (frames, rest) ← closeFrames frames text
  .ok (frames, ← skipKey frames rest)

/-- Goes on after an opening bracket. -/
def afterOpening (frame : Frame) (frames : List Frame) (text : List Char) :
    Reading (List Frame × List Char) :=
  match skipBlank text with
  | [] => .error frame.unfinished
  | c :: rest =>
    if c = frame.closing then afterValue frames rest
    else do .ok (frame :: frames, ← skipKey (frame :: frames) (c :: rest))

/-- Passes over a scalar or an opening bracket, up to the next value. -/
def skipStep (frames : List Frame) (text : List Char) : Reading (List Frame × List Char) :=
  match skipBlank text with
  | '[' :: rest => afterOpening .list frames rest
  | '\x7b' :: rest => afterOpening .object frames rest
  | text => do afterValue frames (← skipScalar text)

/-- Passes over a value and the rest of all that is open around it. -/
def skipWithin : Nat → List Frame → List Char → Reading (List Char)
  | 0, _, _ => .error (.ended .value)
  | left + 1, frames, text => do
    match ← skipStep frames text with
    | ([], rest) => .ok rest
    | (frames, rest) => skipWithin left frames rest

/-- Passes over a value. -/
def skip (text : List Char) : Reading (List Char) := skipWithin (text.length + 1) [] text

end RobotProgram.Json
