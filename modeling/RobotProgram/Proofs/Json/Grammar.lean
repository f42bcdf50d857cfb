import Mathlib.Data.List.DropRight
import Mathlib.Data.List.Forall2
import Mathlib.Data.List.TakeWhile
import RobotProgram.Proofs.Json.Values

/-!
# The grammar of JSON

Which texts are values, whatever a reader makes of them: blanks may stand around every part, strings
may be escaped where they need not be, and numbers may be of any size. Members of an object are told
by their names and by the texts of their values; how they are spaced and spelled does not matter.

## Main definitions

* `Json.IsBody`, `Json.Spells`: what may stand in a string, and the characters that it spells.
* `Json.IsNumeral`: numbers without a sign.
* `Json.Item`, `Json.Member`: items and members with the blanks around them.
* `Json.IsValue`: the texts of values.
* `Json.IsList`, `Json.IsObject`: the texts of given items and of given members.
-/

namespace RobotProgram.Json

/-! ## Blanks -/

def Blank (text : List Char) : Prop := ∀ c ∈ text, isBlank c = true

theorem blank_nil : Blank [] := fun _ none => by cases none

theorem Blank.skipBlank_append {blank : List Char} (h : Blank blank) (text : List Char) :
    skipBlank (blank ++ text) = skipBlank text := List.dropWhile_append_of_pos h

theorem Blank.skipBlank {blank : List Char} (h : Blank blank) : skipBlank blank = [] :=
  List.dropWhile_eq_nil_iff.mpr h

theorem skipBlank_skipBlank (text : List Char) : skipBlank (skipBlank text) = skipBlank text :=
  List.dropWhile_idempotent isBlank text

/-- Every text starts with blanks, if only with none. -/
theorem exists_blank (text : List Char) : ∃ gap, Blank gap ∧ text = gap ++ skipBlank text :=
  ⟨text.takeWhile isBlank, fun _ mem => List.mem_takeWhile_imp mem,
    List.takeWhile_append_dropWhile.symm⟩

theorem ends_nil : Ends [] := fun _ none => by cases none

/-- A blank ends a number. -/
theorem ends_of_isBlank {c : Char} (h : isBlank c = true) (rest : List Char) :
    Ends (c :: rest) := by
  simp only [isBlank, Bool.or_eq_true, decide_eq_true_eq] at h
  obtain ((rfl | rfl) | rfl) | rfl := h <;> exact ends_cons (by decide) rest

/-! ## Strings -/

/-- Four hexadecimal digits and the number that they stand for. -/
def Codes (a b c d : Char) (n : Nat) : Prop :=
  ∃ i j k l, hexValue? a = some i ∧ hexValue? b = some j ∧ hexValue? c = some k ∧
    hexValue? d = some l ∧ n = ((i * 16 + j) * 16 + k) * 16 + l

/-- The letters that may follow a backslash, with the characters that they stand for. -/
def shortEscapes : List (Char × Char) :=
  [('"', '"'), ('\\', '\\'), ('/', '/'), ('b', '\x08'), ('f', '\x0c'), ('n', '\n'), ('r', '\r'),
    ('t', '\t')]

/-- What may stand between quotation marks. Codes need not be those of characters. -/
inductive IsBody : List Char → Prop where
  | nil : IsBody []
  | plain {c : Char} {rest : List Char} (visible : ¬ c.toNat < 32) (quote : c ≠ '"')
      (slash : c ≠ '\\') (tail : IsBody rest) : IsBody (c :: rest)
  | short {letter c : Char} {rest : List Char} (known : (letter, c) ∈ shortEscapes)
      (tail : IsBody rest) : IsBody ('\\' :: letter :: rest)
  | code {a b c d : Char} {n : Nat} {rest : List Char} (code : Codes a b c d n)
      (tail : IsBody rest) : IsBody ('\\' :: 'u' :: a :: b :: c :: d :: rest)

/-- The characters that a text between quotation marks spells; surrogates only do in pairs. -/
inductive Spells : List Char → List Char → Prop where
  | nil : Spells [] []
  | plain {c : Char} {rest cs : List Char} (visible : ¬ c.toNat < 32) (quote : c ≠ '"')
      (slash : c ≠ '\\') (tail : Spells rest cs) : Spells (c :: rest) (c :: cs)
  | short {letter c : Char} {rest cs : List Char} (known : (letter, c) ∈ shortEscapes)
      (tail : Spells rest cs) : Spells ('\\' :: letter :: rest) (c :: cs)
  | code {a b c d : Char} {n : Nat} {rest cs : List Char} (code : Codes a b c d n)
      (leading : isLeading n = false) (trailing : isTrailing n = false) (tail : Spells rest cs) :
      Spells ('\\' :: 'u' :: a :: b :: c :: d :: rest) (Char.ofNat n :: cs)
  | pair {a b c d a' b' c' d' : Char} {n m : Nat} {rest cs : List Char} (first : Codes a b c d n)
      (leading : isLeading n = true) (second : Codes a' b' c' d' m)
      (trailing : isTrailing m = true) (tail : Spells rest cs) :
      Spells ('\\' :: 'u' :: a :: b :: c :: d :: '\\' :: 'u' :: a' :: b' :: c' :: d' :: rest)
        (Char.ofNat (0x10000 + (n - 0xD800) * 0x400 + (m - 0xDC00)) :: cs)

theorem Spells.isBody {body cs : List Char} (h : Spells body cs) : IsBody body := by
  induction h with
  | nil => exact .nil
  | plain visible quote slash _ ih => exact .plain visible quote slash ih
  | short known _ ih => exact .short known ih
  | code code _ _ _ ih => exact .code code ih
  | pair first _ second _ _ ih => exact .code first (.code second ih)

/-! ## Numbers -/

def AllDigits (text : List Char) : Prop := ∀ c ∈ text, c.isDigit = true

/-- At least one digit, and only zero starts with a zero. -/
inductive IsWhole : List Char → Prop where
  | zero : IsWhole ['0']
  | more {c : Char} {rest : List Char} (digit : c.isDigit = true) (nonzero : c ≠ '0')
      (digits : AllDigits rest) : IsWhole (c :: rest)

inductive IsFraction : List Char → Prop where
  | none : IsFraction []
  | some {c : Char} {rest : List Char} (digit : c.isDigit = true) (digits : AllDigits rest) :
      IsFraction ('.' :: c :: rest)

inductive IsExponent : List Char → Prop where
  | none : IsExponent []
  | some {mark c : Char} {sign rest : List Char} (marks : mark = 'e' ∨ mark = 'E')
      (signs : sign = [] ∨ sign = ['+'] ∨ sign = ['-']) (digit : c.isDigit = true)
      (digits : AllDigits rest) : IsExponent (mark :: (sign ++ c :: rest))

/-- Numbers without a sign. -/
inductive IsNumeral : List Char → Prop where
  | mk {whole fraction exponent : List Char} (h : IsWhole whole) (hf : IsFraction fraction)
      (he : IsExponent exponent) : IsNumeral (whole ++ (fraction ++ exponent))

/-! ## Containers -/

/-- A value with the blanks around it. -/
structure Item where
  before : List Char
  value : List Char
  after : List Char
  blankBefore : Blank before
  blankAfter : Blank after

def Item.text (i : Item) : List Char := i.before ++ (i.value ++ i.after)

/-- A key, as it stands between quotation marks, and a value, with the blanks around them. -/
structure Member where
  before : List Char
  key : List Char
  middle : List Char
  item : Item
  blankBefore : Blank before
  blankMiddle : Blank middle

def Member.text (m : Member) : List Char :=
  m.before ++ '"' :: (m.key ++ '"' :: (m.middle ++ ':' :: m.item.text))

/-- The member has this name and this value. -/
def Member.Named (m : Member) (pair : String × List Char) : Prop :=
  Spells m.key pair.1.toList ∧ m.item.value = pair.2

/--
Parts with commas between them and a closing bracket behind them. If they are not the first of their
container, a gap and a comma stand before them; if there are none, a gap before the bracket.
-/
def enclosed (first : Bool) (gap : List Char) (close : Char) : List (List Char) → List Char
  | [] => gap ++ [close]
  | part :: parts =>
    (if first then [] else gap ++ [',']) ++ (part ++ enclosed false [] close parts)

def listText (gap : List Char) (items : List Item) : List Char :=
  '[' :: enclosed true gap ']' (items.map Item.text)

def objectText (gap : List Char) (members : List Member) : List Char :=
  '\x7b' :: enclosed true gap '\x7d' (members.map Member.text)

/-- Blanks behind a part belong to the gap before the next one. -/
theorem append_enclosed (gap : List Char) (close : Char) (parts : List (List Char)) :
    gap ++ enclosed false [] close parts = enclosed false gap close parts := by
  cases parts <;> simp [enclosed]

theorem enclosed_true_append (gap : List Char) (close : Char) (part : List Char)
    (parts : List (List Char)) (rest : List Char) :
    enclosed true gap close (part :: parts) ++ rest =
      part ++ (enclosed false [] close parts ++ rest) := by
  simp [enclosed]

theorem enclosed_false_append (gap : List Char) (close : Char) (part : List Char)
    (parts : List (List Char)) (rest : List Char) :
    enclosed false gap close (part :: parts) ++ rest =
      gap ++ ',' :: (part ++ (enclosed false [] close parts ++ rest)) := by
  simp [enclosed]

/-- In front of what follows it, an item is its value between blanks. -/
theorem Item.text_append (i : Item) (close : Char) (parts : List (List Char))
    (rest : List Char) :
    i.text ++ (enclosed false [] close parts ++ rest) =
      i.before ++ (i.value ++ (enclosed false i.after close parts ++ rest)) := by
  rw [← append_enclosed i.after]
  simp [Item.text]

theorem length_lt_enclosed (gap : List Char) (close : Char) (parts : List (List Char)) :
    parts.length < (enclosed false gap close parts).length := by
  induction parts generalizing gap with
  | nil => simp [enclosed]
  | cons part parts ih =>
    have tail := ih []
    simp only [enclosed, List.length_append, List.length_cons, Bool.false_eq_true, if_false]
    omega

/-- There are no more parts than characters. -/
theorem length_le_enclosed (gap : List Char) (close : Char) (parts : List (List Char)) :
    parts.length ≤ (enclosed true gap close parts).length := by
  cases parts with
  | nil => exact Nat.zero_le _
  | cons part parts =>
    have tail := length_lt_enclosed [] close parts
    simp only [enclosed, List.length_append, List.length_cons, if_true, List.length_nil]
    omega

/-! ## Values -/

/-- The texts of values. -/
inductive IsValue : List Char → Prop where
  | null : IsValue ['n', 'u', 'l', 'l']
  | yes : IsValue ['t', 'r', 'u', 'e']
  | no : IsValue ['f', 'a', 'l', 's', 'e']
  | numeral {text : List Char} (h : IsNumeral text) : IsValue text
  | negative {text : List Char} (h : IsNumeral text) : IsValue ('-' :: text)
  | string {body : List Char} (h : IsBody body) : IsValue ('"' :: (body ++ ['"']))
  | list {gap : List Char} {items : List Item} (blank : Blank gap)
      (values : ∀ i ∈ items, IsValue i.value) : IsValue (listText gap items)
  | object {gap : List Char} {members : List Member} (blank : Blank gap)
      (keys : ∀ m ∈ members, IsBody m.key) (values : ∀ m ∈ members, IsValue m.item.value) :
      IsValue (objectText gap members)

/-- The text is a list of items with these values. -/
def IsList (text : List Char) (values : List (List Char)) : Prop :=
  ∃ gap items, text = listText gap items ∧ Blank gap ∧ (∀ i ∈ items, IsValue i.value) ∧
    items.map Item.value = values

/-- The text is an object of members with these names and values. -/
def IsObject (text : List Char) (pairs : List (String × List Char)) : Prop :=
  ∃ gap members, text = objectText gap members ∧ Blank gap ∧
    (∀ m ∈ members, IsValue m.item.value) ∧ List.Forall₂ Member.Named members pairs

theorem IsList.isValue {text : List Char} {values : List (List Char)} (h : IsList text values) :
    IsValue text := by
  obtain ⟨gap, items, rfl, blank, valid, -⟩ := h
  exact .list blank valid

theorem isBody_of_named {members : List Member} {pairs : List (String × List Char)}
    (named : List.Forall₂ Member.Named members pairs) : ∀ m ∈ members, IsBody m.key := by
  induction named with
  | nil => exact nofun
  | cons head _ ih => exact List.forall_mem_cons.mpr ⟨head.1.isBody, ih⟩

theorem IsObject.isValue {text : List Char} {pairs : List (String × List Char)}
    (h : IsObject text pairs) : IsValue text := by
  obtain ⟨gap, members, rfl, blank, valid, named⟩ := h
  exact .object blank (isBody_of_named named) valid

theorem values_of_named {members : List Member} {pairs : List (String × List Char)}
    (named : List.Forall₂ Member.Named members pairs)
    (values : ∀ m ∈ members, IsValue m.item.value) : ∀ pair ∈ pairs, IsValue pair.2 := by
  induction named with
  | nil => exact nofun
  | cons head _ ih =>
    obtain ⟨first, values⟩ := List.forall_mem_cons.mp values
    exact List.forall_mem_cons.mpr ⟨head.2 ▸ first, ih values⟩

theorem IsObject.values {text : List Char} {pairs : List (String × List Char)}
    (h : IsObject text pairs) : ∀ pair ∈ pairs, IsValue pair.2 := by
  obtain ⟨gap, members, -, -, valid, named⟩ := h
  exact values_of_named named valid

/-! ### Texts without blanks -/

def Item.bare (value : List Char) : Item := ⟨[], value, [], blank_nil, blank_nil⟩

def Member.bare (pair : String × List Char) : Member :=
  ⟨[], pair.1.toList, [], .bare pair.2, blank_nil, blank_nil⟩

/-- The characters need no escapes. -/
def Unescaped (cs : List Char) : Prop := ∀ c ∈ cs, ¬ c.toNat < 32 ∧ c ≠ '"' ∧ c ≠ '\\'

instance (cs : List Char) : Decidable (Unescaped cs) :=
  -- not by inference, which may decide it for all characters there are
  List.decidableBAll _ cs

theorem Unescaped.spells {cs : List Char} (h : Unescaped cs) : Spells cs cs := by
  induction cs with
  | nil => exact .nil
  | cons c cs ih =>
    obtain ⟨⟨visible, quote, slash⟩, tail⟩ := List.forall_mem_cons.mp h
    exact .plain visible quote slash (ih tail)

theorem isList_bare (values : List (List Char)) (valid : ∀ value ∈ values, IsValue value) :
    IsList (listText [] (values.map Item.bare)) values := by
  refine ⟨[], _, rfl, blank_nil, List.forall_mem_map.mpr valid, ?_⟩
  rw [List.map_map]
  exact List.map_id values

theorem isObject_bare (pairs : List (String × List Char))
    (names : ∀ pair ∈ pairs, Unescaped pair.1.toList) (valid : ∀ pair ∈ pairs, IsValue pair.2) :
    IsObject (objectText [] (pairs.map Member.bare)) pairs := by
  refine ⟨[], _, rfl, blank_nil, List.forall_mem_map.mpr valid, ?_⟩
  exact List.forall₂_map_left_iff.mpr
    (List.forall₂_same.mpr fun pair mem => ⟨(names pair mem).spells, rfl⟩)

/-! ### How values start -/

/-- The characters that values start with. -/
def isOpening (c : Char) : Bool :=
  c = 'n' || c = 't' || c = 'f' || c = '-' || c = '"' || c = '[' || c = '\x7b' || c.isDigit

theorem ne_of_isOpening {c : Char} (h : isOpening c = true) :
    isBlank c = false ∧ c ≠ ']' ∧ c ≠ '\x7d' ∧ c ≠ ',' := by
  refine ⟨Bool.eq_false_iff.mpr fun blank => ?_, ?_, ?_, ?_⟩
  · simp only [isBlank, Bool.or_eq_true, decide_eq_true_eq] at blank
    obtain ((rfl | rfl) | rfl) | rfl := blank <;> cases h
  all_goals
    rintro rfl
    cases h

theorem IsNumeral.exists_cons {text : List Char} (h : IsNumeral text) :
    ∃ c later, text = c :: later ∧ c.isDigit = true := by
  obtain ⟨whole, -, -⟩ := h
  cases whole with
  | zero => exact ⟨'0', _, rfl, rfl⟩
  | more digit => exact ⟨_, _, rfl, digit⟩

theorem ne_of_isDigit {c d : Char} (digit : c.isDigit = true) (other : d.isDigit = false) :
    c ≠ d := by
  rintro rfl
  exact absurd digit (Bool.eq_false_iff.mp other)

theorem IsNumeral.head?_ne {text : List Char} {c : Char} (h : IsNumeral text)
    (other : c.isDigit = false) : text.head? ≠ some c := by
  obtain ⟨d, later, rfl, digit⟩ := h.exists_cons
  exact fun front => ne_of_isDigit digit other (Option.some.inj front)

theorem IsValue.exists_cons {text : List Char} (h : IsValue text) :
    ∃ c later, text = c :: later ∧ isOpening c = true := by
  cases h with
  | numeral h =>
    obtain ⟨c, later, rfl, digit⟩ := h.exists_cons
    exact ⟨c, later, rfl, by simp [isOpening, digit]⟩
  | _ => exact ⟨_, _, rfl, rfl⟩

theorem IsValue.skipBlank_append {text : List Char} (h : IsValue text) (rest : List Char) :
    skipBlank (text ++ rest) = text ++ rest := by
  obtain ⟨c, later, rfl, opening⟩ := h.exists_cons
  exact skipBlank_cons (ne_of_isOpening opening).1 _

theorem Item.skipBlank_text {i : Item} (value : IsValue i.value) (rest : List Char) :
    skipBlank (i.text ++ rest) = i.value ++ (i.after ++ rest) := by
  rw [Item.text, List.append_assoc, i.blankBefore.skipBlank_append, List.append_assoc,
    value.skipBlank_append]

theorem Member.skipBlank_text (m : Member) (rest : List Char) : skipBlank (m.text ++ rest) =
    '"' :: (m.key ++ '"' :: (m.middle ++ ':' :: (m.item.text ++ rest))) := by
  rw [Member.text, List.append_assoc, m.blankBefore.skipBlank_append, List.cons_append,
    skipBlank_cons (by decide)]
  simp

section Front

variable {text : List Char} (h : IsValue text)
include h

theorem IsValue.head?_append (rest : List Char) : (text ++ rest).head? = text.head? := by
  obtain ⟨c, later, rfl, -⟩ := h.exists_cons
  rfl

theorem IsValue.of_quote (front : text.head? = some '"') :
    ∃ body, IsBody body ∧ text = '"' :: (body ++ ['"']) := by
  cases h with
  | string body => exact ⟨_, body, rfl⟩
  | numeral h => exact absurd front (h.head?_ne rfl)
  | _ => exact absurd (Option.some.inj front) (by decide)

theorem IsValue.of_letter (front : text.head? = some 'n') : text = ['n', 'u', 'l', 'l'] := by
  cases h with
  | null => rfl
  | numeral h => exact absurd front (h.head?_ne rfl)
  | _ => exact absurd (Option.some.inj front) (by decide)

theorem IsValue.of_bracket (front : text.head? = some '[') :
    ∃ gap items, text = listText gap items ∧ Blank gap ∧ ∀ i ∈ items, IsValue i.value := by
  cases h with
  | list blank values => exact ⟨_, _, rfl, blank, values⟩
  | numeral h => exact absurd front (h.head?_ne rfl)
  | _ => exact absurd (Option.some.inj front) (by decide)

theorem IsValue.of_brace (front : text.head? = some '\x7b') :
    ∃ gap members, text = objectText gap members ∧ Blank gap ∧ (∀ m ∈ members, IsBody m.key) ∧
      ∀ m ∈ members, IsValue m.item.value := by
  cases h with
  | object blank keys values => exact ⟨_, _, rfl, blank, keys, values⟩
  | numeral h => exact absurd front (h.head?_ne rfl)
  | _ => exact absurd (Option.some.inj front) (by decide)

end Front

/-- What follows a value in a container ends it. -/
theorem ends_enclosed {gap : List Char} (blank : Blank gap) {close : Char}
    (closes : close = ']' ∨ close = '\x7d') (parts : List (List Char)) (rest : List Char) :
    Ends (enclosed false gap close parts ++ rest) := by
  cases gap with
  | nil =>
    cases parts with
    | nil => rcases closes with rfl | rfl <;> exact ends_cons (by decide) _
    | cons part parts => exact ends_cons (by decide) _
  | cons c gap =>
    have front : ∃ later, enclosed false (c :: gap) close parts ++ rest = c :: later := by
      cases parts <;> exact ⟨_, rfl⟩
    obtain ⟨later, same⟩ := front
    rw [same]
    exact ends_of_isBlank (blank c List.mem_cons_self) later

end RobotProgram.Json
