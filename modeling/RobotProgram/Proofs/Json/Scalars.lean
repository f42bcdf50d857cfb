import Mathlib.Data.List.Basic
import RobotProgram.Json.Printer
import RobotProgram.Json.Reader

/-!
# Scalars are read as they were written

Strings and integers are read back from what is written of them, in front of any text that does not
go on with a number. Of floats this is not so in general, since the reader rounds more than once; a
float that is read back from its own text is read back in front of other text as well.

## Main definitions

* `Json.Ends`: texts that end a number.
* `Binary64.ReadsBack`: floats that are read back.
-/

namespace RobotProgram

theorem Integer.ofInt?_val (i : Integer) : Integer.ofInt? i.val = some i :=
  dif_pos ⟨i.lower, i.upper⟩

namespace Json

variable {α β : Type}

theorem bind_eq_ok_iff {read : Reading α} {f : α → Reading β} {y : β} :
    (read >>= f) = .ok y ↔ ∃ x, read = .ok x ∧ f x = .ok y := by
  cases read <;> simp [bind, Except.bind]

theorem ok_bind (x : α) (f : α → Reading β) : (.ok x >>= f : Reading β) = f x := rfl

/-! ## Numbers -/

/-- A text that is empty or starts with a character that no number goes on with. -/
def Ends (rest : List Char) : Prop :=
  ∀ c ∈ rest.head?, c.isDigit = false ∧ c ≠ '.' ∧ c ≠ 'e' ∧ c ≠ 'E'

theorem head?_append_ne {c : Char} {text rest : List Char}
    (inside : ∀ later, text = c :: later → False) (outside : rest.head? ≠ some c) :
    (text ++ rest).head? ≠ some c := by
  rw [List.head?_append, Ne, Option.or_eq_some_iff]
  rintro (front | ⟨-, back⟩)
  · obtain ⟨later, same⟩ := List.head?_eq_some_iff.mp front
    exact inside later same
  · exact outside back

theorem fractionPart_of_head? {sig : Nat} {text : List Char} (h : text.head? ≠ some '.') :
    fractionPart sig text = .ok (sig, none, text) := by
  unfold fractionPart
  split <;> simp_all

theorem exponentPart_of_head? {text : List Char} (lower : text.head? ≠ some 'e')
    (upper : text.head? ≠ some 'E') : exponentPart text = .ok (none, text) := by
  unfold exponentPart
  split <;> simp_all

section Ends

variable {rest : List Char} (ends : Ends rest)
include ends

theorem Ends.takeWhile_append (text : List Char) :
    (text ++ rest).takeWhile Char.isDigit = text.takeWhile Char.isDigit := by
  induction text with
  | nil =>
    cases rest with
    | nil => rfl
    | cons c rest => simp [(ends c rfl).1]
  | cons c text ih => cases hc : c.isDigit <;> simp [hc, ih]

theorem Ends.dropWhile_append (text : List Char) :
    (text ++ rest).dropWhile Char.isDigit = text.dropWhile Char.isDigit ++ rest := by
  induction text with
  | nil =>
    cases rest with
    | nil => rfl
    | cons c rest => simp [(ends c rfl).1]
  | cons c text ih => cases hc : c.isDigit <;> simp [hc, ih]

theorem Ends.any_head?_append (text : List Char) :
    (text ++ rest).head?.any Char.isDigit = text.head?.any Char.isDigit := by
  cases text with
  | cons c text => rfl
  | nil =>
    cases rest with
    | nil => rfl
    | cons c rest => exact (ends c rfl).1

theorem addDigits_append (sig : Nat) (text : List Char) :
    addDigits sig (text ++ rest) =
      ((addDigits sig text).1, (addDigits sig text).2.1, (addDigits sig text).2.2 ++ rest) := by
  induction text generalizing sig with
  | nil =>
    cases rest with
    | nil => rfl
    | cons c rest => simp [addDigits, (ends c rfl).1]
  | cons c text ih =>
    rw [List.cons_append, addDigits, addDigits, ih]
    dsimp only
    split <;> rfl

theorem wholePart_append {text mid : List Char} {sig surplus : Nat}
    (h : wholePart text = .ok (sig, surplus, mid)) :
    wholePart (text ++ rest) = .ok (sig, surplus, mid ++ rest) := by
  unfold wholePart at h
  split at h
  · cases h
  · rename_i text
    rw [List.cons_append, wholePart, ends.any_head?_append]
    split at h
    · cases h
    · cases h
      exact if_neg ‹_›
  · rename_i c text nonzero
    split at h
    · rename_i digit
      simp only [Except.ok.injEq, Prod.mk.injEq] at h
      obtain ⟨rfl, rfl, rfl⟩ := h
      rw [List.cons_append, wholePart.eq_3 _ _ nonzero, if_pos digit, ← List.cons_append,
        addDigits_append ends]
      dsimp only
      rw [ends.takeWhile_append, ends.dropWhile_append]
    · cases h

theorem fractionPart_append {text mid : List Char} {sig next : Nat} {places : Option Nat}
    (h : fractionPart sig text = .ok (next, places, mid)) :
    fractionPart sig (text ++ rest) = .ok (next, places, mid ++ rest) := by
  unfold fractionPart at h
  split at h
  · cases h
  · rename_i c text
    split at h
    · rename_i digit
      simp only [Except.ok.injEq, Prod.mk.injEq] at h
      obtain ⟨rfl, rfl, rfl⟩ := h
      rw [List.cons_append, List.cons_append, fractionPart, if_pos digit, ← List.cons_append,
        addDigits_append ends]
      dsimp only
      rw [ends.dropWhile_append]
    · cases h
  · rename_i text alone more
    cases h
    refine fractionPart_of_head? (head?_append_ne ?_ fun point => (ends _ point).2.1 rfl)
    rintro (_ | ⟨c, later⟩) same
    · exact alone same
    · exact more c later same

theorem exponentDigits_append {negative : Bool} {text mid : List Char} {shift : Option Int}
    (h : exponentDigits negative text = .ok (shift, mid)) :
    exponentDigits negative (text ++ rest) = .ok (shift, mid ++ rest) := by
  unfold exponentDigits at h
  split at h
  · cases h
  · rename_i c text
    split at h
    · rename_i digit
      simp only [Except.ok.injEq, Prod.mk.injEq] at h
      obtain ⟨rfl, rfl⟩ := h
      rw [List.cons_append, exponentDigits, if_pos digit, ← List.cons_append]
      dsimp only
      rw [ends.dropWhile_append, ends.takeWhile_append]
    · cases h

/-- Digits that follow the mark of an exponent at once are read as its digits. -/
theorem exponentPart_plain_append {mark : Char} (marks : mark = 'e' ∨ mark = 'E')
    {text mid : List Char} {shift : Option Int} (minus : ∀ later, text ≠ '-' :: later)
    (plus : ∀ later, text ≠ '+' :: later)
    (h : exponentDigits false text = .ok (shift, mid)) :
    exponentPart (mark :: text ++ rest) = .ok (shift, mid ++ rest) := by
  cases text with
  | nil => cases h
  | cons c text =>
    have minus' : ∀ later, c :: text ++ rest ≠ '-' :: later := by
      rintro later ⟨⟩
      exact minus text rfl
    have plus' : ∀ later, c :: text ++ rest ≠ '+' :: later := by
      rintro later ⟨⟩
      exact plus text rfl
    have same : exponentPart (mark :: (c :: text ++ rest)) =
        exponentDigits false (c :: text ++ rest) := by
      rcases marks with rfl | rfl
      · exact exponentPart.eq_5 _ minus' plus'
      · exact exponentPart.eq_6 _ minus' plus'
    exact same.trans (exponentDigits_append ends h)

theorem exponentPart_append {text mid : List Char} {shift : Option Int}
    (h : exponentPart text = .ok (shift, mid)) :
    exponentPart (text ++ rest) = .ok (shift, mid ++ rest) := by
  unfold exponentPart at h
  split at h
  · exact exponentDigits_append ends h
  · exact exponentDigits_append ends h
  · exact exponentDigits_append ends h
  · exact exponentDigits_append ends h
  · rename_i minus plus
    exact exponentPart_plain_append ends (.inl rfl) minus plus h
  · rename_i minus plus
    exact exponentPart_plain_append ends (.inr rfl) minus plus h
  · rename_i lower upper
    cases h
    exact exponentPart_of_head? (head?_append_ne lower fun mark => (ends _ mark).2.2.1 rfl)
      (head?_append_ne upper fun mark => (ends _ mark).2.2.2 rfl)

theorem number_append {negative : Bool} {text mid : List Char} {json : Json}
    (h : number negative text = .ok (json, mid)) :
    number negative (text ++ rest) = .ok (json, mid ++ rest) := by
  simp only [number, bind_eq_ok_iff, Prod.exists] at h ⊢
  obtain ⟨sig, surplus, _, whole, sig', places, _, fraction, shift, _, exponent, h⟩ := h
  refine ⟨sig, surplus, _, wholePart_append ends whole, sig', places, _,
    fractionPart_append ends fraction, shift, _, exponentPart_append ends exponent, ?_⟩
  split at h
  · rename_i n result
    cases h
    rfl
  · cases h

end Ends

theorem scalar_of_isDigit {c : Char} (digit : c.isDigit = true) (text : List Char) :
    scalar (c :: text) = number false (c :: text) := by
  unfold scalar
  split <;> simp_all

/-! ### Integers -/

/-- The digits of a number of 64 bits are all added up. -/
theorem addDigits_eq_ofDigitChars {digits : List Char} (all : ∀ c ∈ digits, c.isDigit = true)
    {sig : Nat} (fits : Nat.ofDigitChars 10 digits sig < 0x10000000000000000) :
    addDigits sig digits = (Nat.ofDigitChars 10 digits sig, digits.length, []) := by
  induction digits generalizing sig with
  | nil => rfl
  | cons c digits ih =>
    obtain ⟨digit, later⟩ := List.forall_mem_cons.mp all
    have next : sig * 10 + (c.toNat - '0'.toNat) = 10 * sig + (c.toNat - '0'.toNat) := by omega
    rw [Nat.ofDigitChars_cons] at fits ⊢
    have grows : 10 * sig + (c.toNat - '0'.toNat) ≤
        Nat.ofDigitChars 10 digits (10 * sig + (c.toNat - '0'.toNat)) := by
      rw [Nat.ofDigitChars_eq_ofDigitChars_zero]
      have := Nat.le_mul_of_pos_left (10 * sig + (c.toNat - '0'.toNat))
        (Nat.pow_pos (n := digits.length) (show 0 < 10 by decide))
      omega
    rw [addDigits, next, if_pos]
    · rw [ih later fits]
      rfl
    · rw [digit, Bool.true_and, decide_eq_true_eq]
      omega

theorem head?_natText_ne {n : Nat} (pos : 0 < n) : (natText n).head? ≠ some '0' := by
  have single : ∀ d < 10, 0 < d → Nat.digitChar d ≠ '0' := by decide
  unfold natText
  induction n using Nat.strongRecOn with
  | ind n ih =>
    by_cases small : n < 10
    · rw [Nat.toDigits_of_lt_base small]
      exact fun same => single n small pos (Option.some.inj same)
    · rw [Nat.toDigits_of_base_le (by decide) (Nat.not_lt.mp small),
        List.head?_append_of_ne_nil _ Nat.toDigits_ne_nil]
      exact ih (n / 10) (by omega) (by omega)

theorem wholePart_natText {n : Nat} (fits : n < 0x10000000000000000) :
    wholePart (natText n) = .ok (n, 0, []) := by
  have all : ∀ c ∈ natText n, c.isDigit = true := fun c =>
    Nat.isDigit_of_mem_toDigits (by decide) (by decide)
  have value : Nat.ofDigitChars 10 (natText n) 0 = n := Nat.ofDigitChars_ten_toDigits
  by_cases pos : 0 < n
  · have first := head?_natText_ne pos
    have sum : addDigits 0 (natText n) = (n, (natText n).length, []) := by
      rw [addDigits_eq_ofDigitChars all (value.symm ▸ fits), value]
    cases text : natText n with
    | nil => exact absurd text Nat.toDigits_ne_nil
    | cons c digits =>
      rw [text] at first all sum
      rw [wholePart.eq_3 _ _ fun zero => first (congrArg some zero),
        if_pos (all c List.mem_cons_self), sum]
      rfl
  · obtain rfl : n = 0 := by omega
    rfl

/-- A natural of 64 bits is read as the plain number of its digits. -/
theorem number_natText {negative : Bool} {n : Nat} (fits : n < 0x10000000000000000) {json : Json}
    (plain : plainNumber negative n = some json) :
    number negative (natText n) = .ok (json, []) := by
  simp only [number, bind_eq_ok_iff, Prod.exists]
  refine ⟨n, 0, [], wholePart_natText fits, n, none, [], rfl, none, [], rfl, ?_⟩
  simp [plain]

theorem plainNumber_of_nonneg {i : Integer} {n : Nat} (val : i.val = n) :
    plainNumber false n = some (.integer i) := by
  rw [plainNumber, if_neg Bool.false_ne_true, ← val, Integer.ofInt?_val]
  rfl

theorem plainNumber_of_neg {i : Integer} {n : Nat} (val : i.val = -n) (pos : n ≠ 0) :
    plainNumber true n = some (.integer i) := by
  rw [plainNumber, if_pos rfl, if_neg pos, ← val, Integer.ofInt?_val]

theorem scalar_intText (i : Integer) {rest : List Char} (ends : Ends rest) :
    scalar (intText i.val ++ rest) = .ok (.integer i, rest) := by
  have lower := i.lower
  have upper := i.upper
  cases val : i.val with
  | ofNat n =>
    rw [Int.ofNat_eq_natCast] at val
    have read := number_append ends (number_natText (by omega) (plainNumber_of_nonneg val))
    have all : ∀ c ∈ natText n, c.isDigit = true := fun c =>
      Nat.isDigit_of_mem_toDigits (by decide) (by decide)
    dsimp only [intText]
    cases text : natText n with
    | nil => exact absurd text Nat.toDigits_ne_nil
    | cons c digits =>
      rw [text] at read all
      exact (scalar_of_isDigit (all c List.mem_cons_self) _).trans read
  | negSucc n =>
    have negated : i.val = -((n + 1 : Nat) : Int) := val
    have plain := plainNumber_of_neg negated (Nat.succ_ne_zero n)
    exact number_append ends (number_natText (by omega) plain)

/-! ### Floats -/

end Json

/-- The reader gives the float for the text that is written of it. -/
def Binary64.ReadsBack (x : Binary64) : Prop :=
  Json.scalar (Json.floatText x) = .ok (.float x, [])

instance (x : Binary64) : Decidable x.ReadsBack :=
  match h : Json.scalar (Json.floatText x) with
  | .ok (.float y, []) => decidable_of_iff (y = x) (by simp [Binary64.ReadsBack, h])
  | .ok (.float _, _ :: _) => isFalse (by simp [Binary64.ReadsBack, h])
  | .ok (.null, _) | .ok (.bool _, _) | .ok (.integer _, _) | .ok (.string _, _)
  | .ok (.array _, _) | .ok (.object _, _) | .error _ => isFalse (by simp [Binary64.ReadsBack, h])

namespace Json

/-- A float is read from a text that starts with a digit or a minus. -/
theorem exists_cons_of_scalar {text mid : List Char} {x : Binary64}
    (h : scalar text = .ok (.float x, mid)) :
    ∃ c later, text = c :: later ∧
      (c = '-' ∧ number true later = .ok (.float x, mid) ∨
        c.isDigit = true ∧ number false (c :: later) = .ok (.float x, mid)) := by
  unfold scalar at h
  split at h
  · cases h
  · cases w : word ['u', 'l', 'l'] ‹_› <;> simp [w, bind, Except.bind] at h
  · cases w : word ['r', 'u', 'e'] ‹_› <;> simp [w, bind, Except.bind] at h
  · cases w : word ['a', 'l', 's', 'e'] ‹_› <;> simp [w, bind, Except.bind] at h
  · rename_i later
    exact ⟨'-', later, rfl, .inl ⟨rfl, h⟩⟩
  · cases w : quotedRest ‹_› <;> simp [w, bind, Except.bind] at h
  · rename_i c later _ _ _ _ _
    split at h
    · rename_i digit
      exact ⟨c, later, rfl, .inr ⟨digit, h⟩⟩
    · cases h

theorem scalar_floatText {x : Binary64} (back : x.ReadsBack) {rest : List Char}
    (ends : Ends rest) : scalar (floatText x ++ rest) = .ok (.float x, rest) := by
  obtain ⟨c, later, text, ⟨rfl, read⟩ | ⟨digit, read⟩⟩ := exists_cons_of_scalar back
  · rw [text]
    exact number_append ends read
  · rw [text]
    exact (scalar_of_isDigit digit _).trans (number_append ends read)

/-! ## Strings -/

theorem hexValue?_digitChar : ∀ d < 16, hexValue? (Nat.digitChar d) = some d := by decide

/-- The code of a control character is read as that character. -/
theorem codeEscape_control {c : Char} (control : c.toNat < 32) (text : List Char) :
    codeEscape ('0' :: '0' :: Nat.digitChar (c.toNat / 16) ::
      Nat.digitChar (c.toNat % 16) :: text) = .ok (c, text) := by
  have high := hexValue?_digitChar (c.toNat / 16) (by omega)
  have low := hexValue?_digitChar (c.toNat % 16) (by omega)
  have zero : hexValue? '0' = some 0 := rfl
  have code : ((0 * 16 + 0) * 16 + c.toNat / 16) * 16 + c.toNat % 16 = c.toNat := by omega
  have read : fourHex ('0' :: '0' :: Nat.digitChar (c.toNat / 16) ::
      Nat.digitChar (c.toNat % 16) :: text) = .ok (c.toNat, text) := by
    simp only [fourHex, high, low, zero, code]
  have trailing : ¬ isTrailing c.toNat = true := by
    simp only [isTrailing, Bool.and_eq_true, decide_eq_true_eq]
    omega
  have leading : isLeading c.toNat = false := by
    simp only [isLeading, Bool.and_eq_false_iff, decide_eq_false_iff_not]
    omega
  rw [codeEscape, read]
  simp [bind, Except.bind, trailing, leading]

/-- What is written of a character is read as that character. -/
theorem stringRest_escaped (c : Char) (left : Nat) (text : List Char) :
    stringRest (left + 1) (escaped c ++ text) =
      (do
        let (cs, rest) ← stringRest left text
        .ok (c :: cs, rest)) := by
  unfold escaped
  split
  · subst c; rfl
  split
  · subst c; rfl
  split
  · subst c; rfl
  split
  · subst c; rfl
  split
  · subst c; rfl
  split
  · subst c; rfl
  split
  · subst c; rfl
  split
  · rename_i control
    simp only [List.cons_append, List.nil_append, stringRest, escape, codeEscape_control control]
    rfl
  · rename_i quote slash _ _ _ _ _ control
    rw [List.cons_append, List.nil_append, stringRest.eq_5 _ _ _ quote slash, if_neg control]

theorem stringRest_flatMap (cs : List Char) {left : Nat} (enough : cs.length < left)
    (rest : List Char) :
    stringRest left (cs.flatMap escaped ++ '"' :: rest) = .ok (cs, rest) := by
  induction cs generalizing left with
  | nil =>
    obtain ⟨left, rfl⟩ := Nat.exists_eq_succ_of_ne_zero (Nat.ne_of_gt enough)
    rfl
  | cons c cs ih =>
    obtain ⟨left, rfl⟩ := Nat.exists_eq_succ_of_ne_zero (Nat.ne_zero_of_lt enough)
    rw [List.flatMap_cons, List.append_assoc, stringRest_escaped, ih (by simpa using enough)]
    rfl

theorem length_le_flatMap_escaped (cs : List Char) : cs.length ≤ (cs.flatMap escaped).length := by
  have some (c : Char) : 0 < (escaped c).length := by
    unfold escaped
    repeat' split
    all_goals exact Nat.succ_pos _
  induction cs with
  | nil => exact Nat.le_refl _
  | cons c cs ih =>
    have := some c
    rw [List.flatMap_cons, List.length_append, List.length_cons]
    omega

theorem quotedRest_escaped (s : String) (rest : List Char) :
    quotedRest (s.toList.flatMap escaped ++ '"' :: rest) = .ok (s, rest) := by
  have enough : s.toList.length < (s.toList.flatMap escaped ++ '"' :: rest).length + 1 := by
    have := length_le_flatMap_escaped s.toList
    rw [List.length_append]
    omega
  rw [quotedRest, stringRest_flatMap s.toList enough]
  exact congrArg (fun s => Except.ok (s, rest)) String.ofList_toList

theorem stringText_append (s : String) (rest : List Char) :
    stringText s ++ rest = '"' :: (s.toList.flatMap escaped ++ '"' :: rest) := by
  simp [stringText]

theorem scalar_stringText (s : String) (rest : List Char) :
    scalar (stringText s ++ rest) = .ok (.string s, rest) := by
  rw [stringText_append, scalar, quotedRest_escaped]
  rfl

end Json

end RobotProgram
