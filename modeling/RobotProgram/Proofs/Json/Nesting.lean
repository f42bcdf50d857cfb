import Mathlib.Data.List.Basic
import RobotProgram.Json.Printer

/-!
# Containers in a text

How many containers a text of JSON keeps open at once can be counted on the text alone, from left
to right, if brackets and braces in strings are passed over. For what is written of a value the
count is the depth of the value.

## Main definitions

* `Json.Scan`: what is known of a text that was gone through so far.
* `Json.mostOpen`: how many containers a text keeps open at once.
-/

namespace RobotProgram.Json

/-! ## Counting -/

/-- Where the next character of a text stands: outside of strings, in one, or behind a backslash. -/
inductive Position where
  | outside | inside | escaped
  deriving DecidableEq

/-- What is known of a text so far: how many containers are open, and how many were at once. -/
structure Scan where
  position : Position
  opened : Nat
  most : Nat
  deriving DecidableEq

namespace Scan

def step (s : Scan) (c : Char) : Scan :=
  match s.position with
  | .escaped => { s with position := .inside }
  | .inside =>
    if c = '"' then { s with position := .outside }
    else if c = '\\' then { s with position := .escaped }
    else s
  | .outside =>
    if c = '"' then { s with position := .inside }
    else if c = '[' ∨ c = '\x7b' then
      { s with opened := s.opened + 1, most := max s.most (s.opened + 1) }
    else if c = ']' ∨ c = '\x7d' then { s with opened := s.opened - 1 }
    else s

/-- Goes through a text. -/
def past (s : Scan) (text : List Char) : Scan := text.foldl step s

@[simp] theorem past_nil (s : Scan) : s.past [] = s := rfl

@[simp] theorem past_cons (s : Scan) (c : Char) (text : List Char) :
    s.past (c :: text) = (s.step c).past text := rfl

@[simp] theorem past_append (s : Scan) (xs ys : List Char) :
    s.past (xs ++ ys) = (s.past xs).past ys := List.foldl_append

end Scan

/-- How many containers a text keeps open at once. -/
def mostOpen (text : List Char) : Nat := ((Scan.mk .outside 0 0).past text).most

/-! ## Scalars -/

/-- The characters that numbers are written with. -/
def isNumeric (c : Char) : Bool := c.isDigit || c = '.' || c = 'e' || c = '+' || c = '-'

theorem isNumeric_of_mem_natText {n : Nat} : ∀ c ∈ natText n, isNumeric c = true := by
  intro c mem
  have digit : c.isDigit = true := Nat.isDigit_of_mem_toDigits (by decide) (by decide) mem
  simp [isNumeric, digit]

theorem isNumeric_of_mem_intText {i : Int} : ∀ c ∈ intText i, isNumeric c = true := by
  cases i with
  | ofNat n => exact isNumeric_of_mem_natText
  | negSucc n => exact List.forall_mem_cons.mpr ⟨rfl, isNumeric_of_mem_natText⟩

theorem isNumeric_of_mem_decimalText {d : Decimal} : ∀ c ∈ decimalText d, isNumeric c = true := by
  have digits : ∀ c ∈ natText d.digits, isNumeric c = true := isNumeric_of_mem_natText
  have zeros (n : Nat) : ∀ c ∈ List.replicate n '0', isNumeric c = true := by
    intro c mem
    rw [List.eq_of_mem_replicate mem]
    rfl
  unfold decimalText
  dsimp only
  split
  · split
    · simp only [List.forall_mem_append, List.forall_mem_cons]
      exact ⟨⟨digits, zeros _⟩, rfl, rfl, by simp⟩
    split
    · simp only [List.forall_mem_append, List.forall_mem_cons]
      exact ⟨fun c mem => digits c (List.mem_of_mem_take mem), rfl,
        fun c mem => digits c (List.mem_of_mem_drop mem)⟩
    · simp only [List.cons_append, List.forall_mem_append, List.forall_mem_cons]
      exact ⟨rfl, rfl, zeros _, digits⟩
  · generalize d.exponent + _ - 1 = lead
    have mark : ∀ c ∈ (if lead < 0 then 'e' :: intText lead else 'e' :: '+' :: intText lead),
        isNumeric c = true := by
      split <;> simp only [List.forall_mem_cons]
      · exact ⟨rfl, isNumeric_of_mem_intText⟩
      · exact ⟨rfl, rfl, isNumeric_of_mem_intText⟩
    split
    · exact mark
    · rename_i c single
      exact List.forall_mem_cons.mpr ⟨digits c (by simp [single]), mark⟩
    · rename_i c rest _ several
      simp only [List.cons_append, List.forall_mem_append, List.forall_mem_cons]
      rw [several, List.forall_mem_cons] at digits
      exact ⟨digits.1, rfl, digits.2, mark⟩

theorem isNumeric_of_mem_floatText {x : Binary64} : ∀ c ∈ floatText x, isNumeric c = true := by
  have positive : ∀ c ∈ (if x.rank = 0 then ['0', '.', '0'] else
      decimalText (Decimal.shortest x.rank)), isNumeric c = true := by
    split
    · simp only [List.forall_mem_cons]
      exact ⟨rfl, rfl, rfl, by simp⟩
    · exact isNumeric_of_mem_decimalText
  unfold floatText
  dsimp only
  split
  · exact List.forall_mem_cons.mpr ⟨rfl, positive⟩
  · exact positive

/-- The characters that open or close a string or a container. -/
def isMark (c : Char) : Bool := c = '"' || c = '[' || c = ']' || c = '\x7b' || c = '\x7d'

theorem isMark_of_isNumeric {c : Char} (numeric : isNumeric c = true) : isMark c = false := by
  refine Bool.eq_false_iff.mpr fun mark => ?_
  simp only [isMark, Bool.or_eq_true, decide_eq_true_eq] at mark
  obtain (((rfl | rfl) | rfl) | rfl) | rfl := mark <;> cases numeric

theorem isMark_of_mem_newline {level : Nat} : ∀ c ∈ newline level, isMark c = false := by
  refine List.forall_mem_cons.mpr ⟨rfl, fun c mem => ?_⟩
  rw [List.eq_of_mem_replicate mem]
  rfl

namespace Scan

variable {opened most : Nat}

/-- Outside of strings only marks count. -/
theorem past_plain {text : List Char} (plain : ∀ c ∈ text, isMark c = false) :
    (mk .outside opened most).past text = ⟨.outside, opened, most⟩ := by
  induction text with
  | nil => rfl
  | cons c text ih =>
    obtain ⟨first, rest⟩ := List.forall_mem_cons.mp plain
    have still : (mk .outside opened most).step c = ⟨.outside, opened, most⟩ := by
      simp only [isMark, Bool.or_eq_false_iff, decide_eq_false_iff_not] at first
      simp [step, first]
    rw [past_cons, still, ih rest]

theorem past_numeric {text : List Char} (numeric : ∀ c ∈ text, isNumeric c = true) :
    (mk .outside opened most).past text = ⟨.outside, opened, most⟩ :=
  past_plain fun c mem => isMark_of_isNumeric (numeric c mem)

@[simp] theorem past_newline (level : Nat) :
    (mk .outside opened most).past (newline level) = ⟨.outside, opened, most⟩ :=
  past_plain isMark_of_mem_newline

/-! ### Strings -/

/-- A hexadecimal digit is taken as it is. -/
theorem step_digitChar : ∀ d < 16,
    (mk .inside opened most).step (Nat.digitChar d) = ⟨.inside, opened, most⟩ := by
  have other : ∀ d < 16, Nat.digitChar d ≠ '"' ∧ Nat.digitChar d ≠ '\\' := by decide
  intro d bound
  simp [step, other d bound]

/-- What is written of a character does not end the string that it is in. -/
theorem past_escaped (c : Char) :
    (mk .inside opened most).past (escaped c) = ⟨.inside, opened, most⟩ := by
  unfold escaped
  split
  · rfl
  split
  · rfl
  split
  · rfl
  split
  · rfl
  split
  · rfl
  split
  · rfl
  split
  · rfl
  split
  · have high : c.toNat / 16 < 16 := by omega
    have low : c.toNat % 16 < 16 := by omega
    have front : (mk .inside opened most).past ['\\', 'u', '0', '0'] =
        ⟨.inside, opened, most⟩ := rfl
    change ((mk .inside opened most).past (['\\', 'u', '0', '0'] ++
      [Nat.digitChar (c.toNat / 16), Nat.digitChar (c.toNat % 16)])) = _
    rw [past_append, front, past_cons, step_digitChar _ high, past_cons, step_digitChar _ low,
      past_nil]
  · rename_i quote slash _ _ _ _ _ _
    simp [step, quote, slash]

@[simp] theorem past_stringText (s : String) :
    (mk .outside opened most).past (stringText s) = ⟨.outside, opened, most⟩ := by
  have inner (cs : List Char) :
      (mk .inside opened most).past (cs.flatMap escaped) = ⟨.inside, opened, most⟩ := by
    induction cs with
    | nil => rfl
    | cons c cs ih => rw [List.flatMap_cons, past_append, past_escaped, ih]
  have opening : (mk .outside opened most).step '"' = ⟨.inside, opened, most⟩ := rfl
  rw [stringText, List.cons_append, past_cons, opening, past_append, inner]
  rfl

/-! ## Values -/

theorem step_list : (mk .outside opened most).step '[' =
    ⟨.outside, opened + 1, max most (opened + 1)⟩ := rfl

theorem step_object : (mk .outside opened most).step '\x7b' =
    ⟨.outside, opened + 1, max most (opened + 1)⟩ := rfl

theorem step_close_list : (mk .outside (opened + 1) most).step ']' = ⟨.outside, opened, most⟩ := rfl

theorem step_close_object :
    (mk .outside (opened + 1) most).step '\x7d' = ⟨.outside, opened, most⟩ := rfl

theorem step_comma : (mk .outside opened most).step ',' = ⟨.outside, opened, most⟩ := rfl
theorem step_colon : (mk .outside opened most).step ':' = ⟨.outside, opened, most⟩ := rfl
theorem step_blank : (mk .outside opened most).step ' ' = ⟨.outside, opened, most⟩ := rfl

mutual

/-- The text of a value closes all that it opens, and opens as much as the value is deep. -/
theorem past_pretty : ∀ {opened most level : Nat} (json : Json), opened ≤ most →
    (mk .outside opened most).past (pretty level json) =
      ⟨.outside, opened, max most (opened + json.depth)⟩
  | _, _, _, .null, within => by
    have plain : ∀ c ∈ ['n', 'u', 'l', 'l'], isMark c = false := by simp [isMark]
    simpa [pretty, depth, within] using past_plain plain
  | _, _, _, .bool b, within => by
    have plain : ∀ c ∈ boolText b, isMark c = false := by cases b <;> simp [boolText, isMark]
    simpa [pretty, depth, within] using past_plain plain
  | _, _, _, .integer i, within => by
    simpa [pretty, depth, within] using past_numeric isNumeric_of_mem_intText
  | _, _, _, .float x, within => by
    simpa [pretty, depth, within] using past_numeric isNumeric_of_mem_floatText
  | _, _, _, .string s, within => by
    simp [pretty, depth, within]
  | _, _, _, .array [], within => by
    simp [pretty, step_list, step_close_list, depth, depthItems]
  | _, _, level, .array (x :: xs), within => by
    simp only [pretty, List.cons_append, past_cons, past_append, step_list, past_newline]
    rw [past_pretty x (Nat.le_max_right _ _), past_prettyItems xs (by omega)]
    simp only [depth, depthItems, mk.injEq, true_and]
    omega
  | _, _, _, .object [], within => by
    simp [pretty, step_object, step_close_object, depth, depthMembers]
  | _, _, level, .object ((key, x) :: rest), within => by
    simp only [pretty, List.cons_append, past_cons, past_append, step_object, past_newline,
      past_stringText, step_colon, step_blank]
    rw [past_pretty x (Nat.le_max_right _ _), past_prettyMembers rest (by omega)]
    simp only [depth, depthMembers, mk.injEq, true_and]
    omega

theorem past_prettyItems : ∀ {opened most level : Nat} (items : List Json), opened + 1 ≤ most →
    (mk .outside (opened + 1) most).past (prettyItems level items) =
      ⟨.outside, opened, max most (opened + 1 + depthItems items)⟩
  | _, _, level, [], within => by
    simp only [prettyItems, past_append, past_newline, past_cons, step_close_list, past_nil,
      depthItems, mk.injEq, true_and]
    omega
  | _, _, level, x :: xs, within => by
    simp only [prettyItems, List.cons_append, past_cons, past_append, step_comma, past_newline]
    rw [past_pretty x within, past_prettyItems xs (by omega)]
    simp only [depthItems, mk.injEq, true_and]
    omega

theorem past_prettyMembers : ∀ {opened most level : Nat} (members : List (String × Json)),
    opened + 1 ≤ most →
    (mk .outside (opened + 1) most).past (prettyMembers level members) =
      ⟨.outside, opened, max most (opened + 1 + depthMembers members)⟩
  | _, _, level, [], within => by
    simp only [prettyMembers, past_append, past_newline, past_cons, step_close_object, past_nil,
      depthMembers, mk.injEq, true_and]
    omega
  | _, _, level, (key, x) :: rest, within => by
    simp only [prettyMembers, List.cons_append, past_cons, past_append, step_comma, past_newline,
      past_stringText, step_colon, step_blank]
    rw [past_pretty x within, past_prettyMembers rest (by omega)]
    simp only [depthMembers, mk.injEq, true_and]
    omega

end

end Scan

/-- What is written of a value keeps as many containers open at once as the value is deep. -/
theorem mostOpen_pretty (level : Nat) (json : Json) :
    mostOpen (pretty level json) = json.depth := by
  rw [mostOpen, Scan.past_pretty json (Nat.le_refl 0)]
  simp

/-- What stands in a string, here behind an escaped quotation mark, opens nothing. -/
example : mostOpen ['[', '"', '\\', '"', '[', '[', '"', ',', '[', ']', ']'] = 2 := by decide

end RobotProgram.Json
