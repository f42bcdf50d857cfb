import RobotProgram.Numeral.Shortest
import RobotProgram.Toml.Basic

/-!
# TOML scalars

Strings are read from the front of a text, everything else from a token that has been cut off before:
a run of characters up to a blank, a bracket, a comma, a comment or the end of the line.

## Main definitions

* `Toml.quoted?`: strings of all four kinds.
* `Toml.token?`: the value of a token.
-/

namespace RobotProgram.Toml

def isBlank (c : Char) : Bool := c = ' ' || c = '\t'

def skipBlank (text : List Char) : List Char := text.dropWhile isBlank

/-- Whether a character may stand for itself in a comment or a string. -/
def isPlain (c : Char) : Bool := c = '\t' || (32 ≤ c.toNat && c.toNat ≠ 127)

/-- The text after a line break, if there is one in front. -/
def newline? : List Char → Option (List Char)
  | '\n' :: rest => some rest
  | '\r' :: '\n' :: rest => some rest
  | _ => none

/-! ## Strings -/

/-- The value of a digit in a base up to sixteen. -/
def digit? (base : Nat) (c : Char) : Option Nat :=
  let n :=
    if c.isDigit then c.toNat - '0'.toNat
    else if 'a' ≤ c ∧ c ≤ 'f' then c.toNat - 'a'.toNat + 10
    else if 'A' ≤ c ∧ c ≤ 'F' then c.toNat - 'A'.toNat + 10
    else base
  if n < base then some n else none

/-- The value of digits in a base. -/
def digits? (base : Nat) (cs : List Char) : Option Nat :=
  cs.foldlM (fun n c => (digit? base c).map (n * base + ·)) 0

/-- The character whose code the next `count` hexadecimal digits give. -/
def code? (count : Nat) (text : List Char) : Option (Char × List Char) := do
  let cs := text.take count
  let n ← if cs.length = count then digits? 16 cs else none
  if h : n.isValidChar then some (Char.ofNatAux n h, text.drop count) else none

/-- The character that a backslash and the text behind it stand for. -/
def escape? : List Char → Option (Char × List Char)
  | 'b' :: rest => some ('\x08', rest)
  | 't' :: rest => some ('\t', rest)
  | 'n' :: rest => some ('\n', rest)
  | 'f' :: rest => some ('\x0c', rest)
  | 'r' :: rest => some ('\r', rest)
  | '"' :: rest => some ('"', rest)
  | '\\' :: rest => some ('\\', rest)
  | 'u' :: rest => code? 4 rest
  | 'U' :: rest => code? 8 rest
  | _ => none

/-- The rest of a string in `quote` marks on one line, with escapes if `escapes`. -/
def lineString? (quote : Char) (escapes : Bool) : Nat → List Char → Option (List Char × List Char)
  | 0, _ | _ + 1, [] => none
  | left + 1, c :: rest =>
    if c = quote then some ([], rest)
    else if escapes && c = '\\' then do
      let (c, rest) ← escape? rest
      let (cs, rest) ← lineString? quote escapes left rest
      some (c :: cs, rest)
    else if isPlain c then do
      let (cs, rest) ← lineString? quote escapes left rest
      some (c :: cs, rest)
    else none

/-- The text after blanks and line breaks. -/
def skipBreaks : List Char → List Char
  | '\r' :: '\n' :: rest => skipBreaks rest
  | c :: rest => if isBlank c || c = '\n' then skipBreaks rest else c :: rest
  | [] => []

/-- The text after a backslash at the end of a line: blanks and line breaks have no meaning. -/
def continued? (text : List Char) : Option (List Char) :=
  (newline? (skipBlank text)).map skipBreaks

/--
The rest of a string in three `quote` marks. Up to two marks before the closing ones belong to it, and
a line break is one character however it is written.
-/
def blockString? (quote : Char) (escapes : Bool) : Nat → List Char → Option (List Char × List Char)
  | 0, _ | _ + 1, [] => none
  | left + 1, c :: rest =>
    let go (cs : List Char) (rest : List Char) : Option (List Char × List Char) := do
      let (tail, rest) ← blockString? quote escapes left rest
      some (cs ++ tail, rest)
    let text := c :: rest
    let marks := (text.takeWhile (· = quote)).length
    if 3 ≤ marks then
      let marks := min marks 5
      some (List.replicate (marks - 3) quote, text.drop marks)
    else if escapes && c = '\\' then
      match continued? rest with
      | some rest => go [] rest
      | none => do
        let (c, rest) ← escape? rest
        go [c] rest
    else
      match newline? text with
      | some rest => go ['\n'] rest
      | none => if isPlain c then go [c] rest else none

/-- The rest of a string in `quote` marks, the first of which has been read. -/
def quoted? (quote : Char) (escapes : Bool) (text : List Char) :
    Option (List Char × List Char) :=
  if text.take 2 = [quote, quote] then
    let text := text.drop 2
    let text := (newline? text).getD text
    blockString? quote escapes text.length text
  else lineString? quote escapes (text.length + 1) text

/-! ## Numbers -/

/-- Digits of a base, among which single underscores may stand; the value and what follows. -/
def spacedDigits? (base : Nat) : List Char → Option (List Char × List Char)
  | [] => none
  | c :: rest =>
    if (digit? base c).isNone then none
    else
      match rest with
      | '_' :: rest => (spacedDigits? base rest).map fun (cs, rest) => (c :: cs, rest)
      | rest =>
        match spacedDigits? base rest with
        | some (cs, rest) => some (c :: cs, rest)
        | none => some ([c], rest)

def sign : List Char → Bool × List Char
  | '+' :: rest => (false, rest)
  | '-' :: rest => (true, rest)
  | text => (false, text)

/-- A decimal integer without sign: no zero in front of other digits. -/
def wholeDigits? (text : List Char) : Option (List Char × List Char) :=
  match text with
  | '0' :: rest => some (['0'], rest)
  | text => spacedDigits? 10 text

/-- An integer of 64 bits with a sign. -/
def inRange? (i : Int) : Option Int :=
  if -0x8000000000000000 ≤ i ∧ i < 0x8000000000000000 then some i else none

/-- All of a text as digits of a base. -/
def based? (base : Nat) (text : List Char) : Option Int := do
  let (cs, rest) ← spacedDigits? base text
  if rest.isEmpty then inRange? (← digits? base cs) else none

def integer? : List Char → Option Int
  | '0' :: 'x' :: rest => based? 16 rest
  | '0' :: 'o' :: rest => based? 8 rest
  | '0' :: 'b' :: rest => based? 2 rest
  | text => do
    let (negative, text) := sign text
    let (cs, rest) ← wholeDigits? text
    let n ← digits? 10 cs
    if rest.isEmpty then inRange? (if negative then -n else n) else none

/-- The digits of a fraction, if there is one. -/
def fraction? : List Char → Option (List Char × List Char)
  | '.' :: rest => spacedDigits? 10 rest
  | rest => some ([], rest)

/-- The exponent, if there is one. -/
def exponent? : List Char → Option (Int × List Char)
  | 'e' :: rest | 'E' :: rest => do
    let (negative, rest) := sign rest
    let (cs, rest) ← spacedDigits? 10 rest
    let n ← digits? 10 cs
    some (if negative then -n else n, rest)
  | rest => some (0, rest)

/-- Whether `n * 10 ^ exponent` rounds to a finite number. -/
def isFinite (n : Nat) (exponent : Int) : Bool :=
  let lead := (Decimal.length n : Int) + exponent
  n = 0 || lead < 300 || (lead < 400 && (Decimal.rank ⟨n, exponent⟩ < Binary64.limit))

/-- Whether a text is a float. Only negative ones may be too large to be finite. -/
def isFloat (text : List Char) : Bool :=
  let (negative, unsigned) := sign text
  if unsigned = ['i', 'n', 'f'] ∨ unsigned = ['n', 'a', 'n'] then true
  else
    (do
      let (whole, rest) ← wholeDigits? unsigned
      let (places, rest') ← fraction? rest
      let (exponent, rest'') ← exponent? rest'
      let n ← digits? 10 (whole ++ places)
      if !rest.isEmpty && rest''.isEmpty && (negative || isFinite n (exponent - places.length))
      then some () else none).isSome

/-! ## Dates -/

/-- A number of exactly `count` digits within bounds. -/
def bounded? (count low high : Nat) (text : List Char) : Option (Nat × List Char) := do
  let cs := text.take count
  let n ← if cs.length = count then digits? 10 cs else none
  if low ≤ n ∧ n ≤ high then some (n, text.drop count) else none

/-- The text after a given character. -/
def expect? (c : Char) : List Char → Option (List Char)
  | d :: rest => if d = c then some rest else none
  | [] => none

def daysIn (year month : Nat) : Nat :=
  if month = 2 then
    if year % 4 = 0 ∧ (year % 100 ≠ 0 ∨ year % 400 = 0) then 29 else 28
  else if month ∈ [4, 6, 9, 11] then 30
  else 31

/-- The text after a day of the calendar. -/
def day? (text : List Char) : Option (List Char) := do
  let (year, text) ← bounded? 4 0 9999 text
  let (month, text) ← bounded? 2 1 12 (← expect? '-' text)
  let (_, text) ← bounded? 2 1 (daysIn year month) (← expect? '-' text)
  some text

/-- The text after a time of day. -/
def time? (text : List Char) : Option (List Char) := do
  let (_, text) ← bounded? 2 0 23 text
  let (_, text) ← bounded? 2 0 59 (← expect? ':' text)
  let (_, text) ← bounded? 2 0 60 (← expect? ':' text)
  match text with
  | '.' :: rest => if rest.head?.any Char.isDigit then some (rest.dropWhile Char.isDigit) else none
  | text => some text

/-- The text after the offset of a time zone, if there is one. -/
def offset? : List Char → Option (List Char)
  | 'Z' :: rest | 'z' :: rest => some rest
  | '+' :: rest | '-' :: rest => do
    let (_, rest) ← bounded? 2 0 23 rest
    let (_, rest) ← bounded? 2 0 59 (← expect? ':' rest)
    some rest
  | text => some text

/-- Whether a text is a time of day, maybe in a time zone. -/
def isZonedTime (text : List Char) : Bool := (do offset? (← time? text)) = some []

/-- Whether a text is a day, a time, or both. -/
def isDate (text : List Char) : Bool :=
  match day? text with
  | some [] => true
  | some (c :: rest) => (c = 'T' || c = 't') && isZonedTime rest
  | none => time? text = some []

/-! ## Tokens -/

/-- Whether a character ends a token. -/
def endsToken (c : Char) : Bool :=
  isBlank c || c = '\n' || c = '\r' || c = '#' || c = ',' || c = ']' || c = '\x7d'

/-- The value of a token. -/
def token? (token : List Char) : Option Value :=
  if token = ['t', 'r', 'u', 'e'] then some (.boolean true)
  else if token = ['f', 'a', 'l', 's', 'e'] then some (.boolean false)
  else if isDate token then some (.date (String.ofList token))
  else if isFloat token then some (.float (String.ofList token))
  else (integer? token).map .integer

/-- A value that is a token; a blank may stand between a day and a time. -/
def plainValue? (text : List Char) : Option (Value × List Char) := do
  let token := text.takeWhile (!endsToken ·)
  let rest := text.drop token.length
  let value ← token? token
  match rest with
  | ' ' :: more =>
    let time := more.takeWhile (!endsToken ·)
    if day? token = some [] && isZonedTime time then
      some (.date (String.ofList (token ++ ' ' :: time)), more.drop time.length)
    else some (value, rest)
  | _ => some (value, rest)

end RobotProgram.Toml
