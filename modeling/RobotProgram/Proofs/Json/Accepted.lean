import RobotProgram.Proofs.Json.Skipping

/-!
# What is read is of the grammar

Whatever is read from the front of a text, or passed over, is a value of the grammar. So the grammar
tells all the texts apart that are read at all, and no others.

## Main definitions

* `Json.Takes`: the form of what a reader takes from the front of a text.
* `Json.Closes`: what stands behind a value, up to the end of all that is open around it.

## Main results

* `Json.takes_value`, `Json.exists_isValue_of_skip`: values are read and skipped by the grammar.
-/

namespace RobotProgram.Json

variable {α σ : Type}

/-! ## Numbers -/

theorem allDigits_takeWhile (text : List Char) : AllDigits (text.takeWhile Char.isDigit) :=
  fun _ mem => List.mem_takeWhile_imp mem

theorem dropWhile_addDigits (sig : Nat) (text : List Char) :
    (addDigits sig text).2.2.dropWhile Char.isDigit = text.dropWhile Char.isDigit := by
  induction text generalizing sig with
  | nil => rfl
  | cons c text ih =>
    rw [addDigits]
    dsimp only
    split
    · rename_i fits
      rw [Bool.and_eq_true] at fits
      exact (ih _).trans (List.dropWhile_cons_of_pos fits.1).symm
    · rfl

/-- From a digit on, all digits are taken. -/
theorem eq_append_dropWhile {c : Char} (digit : c.isDigit = true) (text : List Char) :
    c :: text = c :: text.takeWhile Char.isDigit ++ (c :: text).dropWhile Char.isDigit := by
  rw [List.dropWhile_cons_of_pos digit, List.cons_append, List.takeWhile_append_dropWhile]

theorem exists_isWhole_of_wholePart {text rest : List Char} {sig surplus : Nat}
    (h : wholePart text = .ok (sig, surplus, rest)) : ∃ w, IsWhole w ∧ text = w ++ rest := by
  unfold wholePart at h
  split at h
  · cases h
  · split at h
    · cases h
    · cases h
      exact ⟨['0'], .zero, rfl⟩
  · rename_i c text nonzero
    split at h
    · rename_i digit
      simp only [Except.ok.injEq, Prod.mk.injEq] at h
      obtain ⟨-, -, rfl⟩ := h
      rw [dropWhile_addDigits]
      exact ⟨_, .more digit nonzero (allDigits_takeWhile text), eq_append_dropWhile digit text⟩
    · cases h

theorem exists_isFraction_of_fractionPart {text rest : List Char} {sig next : Nat}
    {places : Option Nat} (h : fractionPart sig text = .ok (next, places, rest)) :
    ∃ f, IsFraction f ∧ text = f ++ rest := by
  unfold fractionPart at h
  split at h
  · cases h
  · rename_i c text
    split at h
    · rename_i digit
      simp only [Except.ok.injEq, Prod.mk.injEq] at h
      obtain ⟨-, -, rfl⟩ := h
      rw [dropWhile_addDigits]
      exact ⟨_, .some digit (allDigits_takeWhile text),
        congrArg ('.' :: ·) (eq_append_dropWhile digit text)⟩
    · cases h
  · cases h
    exact ⟨[], .none, rfl⟩

theorem exists_digits_of_skipDigits {text rest : List Char} (h : skipDigits text = .ok rest) :
    ∃ c digits, c.isDigit = true ∧ AllDigits digits ∧ text = c :: digits ++ rest := by
  unfold skipDigits at h
  split at h
  · rename_i digit
    cases h
    cases text with
    | nil => cases digit
    | cons c text => exact ⟨c, _, digit, allDigits_takeWhile text, eq_append_dropWhile digit text⟩
  · cases h

theorem exists_digits_of_exponentDigits {negative : Bool} {text rest : List Char}
    {shift : Option Int} (h : exponentDigits negative text = .ok (shift, rest)) :
    ∃ c digits, c.isDigit = true ∧ AllDigits digits ∧ text = c :: digits ++ rest := by
  unfold exponentDigits at h
  split at h
  · cases h
  · rename_i c text
    split at h
    · rename_i digit
      cases h
      exact ⟨c, _, digit, allDigits_takeWhile text, eq_append_dropWhile digit text⟩
    · cases h

/-- An exponent that is read or passed over has a mark, perhaps a sign, and then digits. -/
theorem exponent_cases (text : List Char) :
    (∃ mark sign later negative, (mark = 'e' ∨ mark = 'E') ∧
      (sign = [] ∨ sign = ['+'] ∨ sign = ['-']) ∧ text = mark :: (sign ++ later) ∧
      exponentPart text = exponentDigits negative later ∧ skipExponent text = skipDigits later) ∨
    (exponentPart text = .ok (none, text) ∧ skipExponent text = .ok text) := by
  unfold exponentPart skipExponent
  split
  · exact .inl ⟨'e', ['-'], _, true, by simp, by simp, rfl, rfl, rfl⟩
  · exact .inl ⟨'E', ['-'], _, true, by simp, by simp, rfl, rfl, rfl⟩
  · exact .inl ⟨'e', ['+'], _, false, by simp, by simp, rfl, rfl, rfl⟩
  · exact .inl ⟨'E', ['+'], _, false, by simp, by simp, rfl, rfl, rfl⟩
  · exact .inl ⟨'e', [], _, false, by simp, by simp, rfl, rfl, rfl⟩
  · exact .inl ⟨'E', [], _, false, by simp, by simp, rfl, rfl, rfl⟩
  · exact .inr ⟨rfl, rfl⟩

/-- Behind a mark and a sign, an exponent goes on with digits. -/
theorem exists_isExponent {mark : Char} {sign later rest : List Char}
    (marks : mark = 'e' ∨ mark = 'E') (signs : sign = [] ∨ sign = ['+'] ∨ sign = ['-'])
    (h : ∃ c digits, c.isDigit = true ∧ AllDigits digits ∧ later = c :: digits ++ rest) :
    ∃ e, IsExponent e ∧ mark :: (sign ++ later) = e ++ rest := by
  obtain ⟨c, digits, digit, all, rfl⟩ := h
  exact ⟨_, .some marks signs digit all, by simp⟩

theorem exists_isExponent_of_exponentPart {text rest : List Char} {shift : Option Int}
    (h : exponentPart text = .ok (shift, rest)) : ∃ e, IsExponent e ∧ text = e ++ rest := by
  obtain ⟨mark, sign, later, negative, marks, signs, rfl, read, -⟩ | ⟨read, -⟩ :=
    exponent_cases text
  · exact exists_isExponent marks signs (exists_digits_of_exponentDigits (read.symm.trans h))
  · cases read.symm.trans h
    exact ⟨[], .none, rfl⟩

theorem exists_isExponent_of_skipExponent {text rest : List Char}
    (h : skipExponent text = .ok rest) : ∃ e, IsExponent e ∧ text = e ++ rest := by
  obtain ⟨mark, sign, later, negative, marks, signs, rfl, -, read⟩ | ⟨-, read⟩ :=
    exponent_cases text
  · exact exists_isExponent marks signs (exists_digits_of_skipDigits (read.symm.trans h))
  · cases read.symm.trans h
    exact ⟨[], .none, rfl⟩

/-- What is read of a number is one. -/
theorem exists_isNumeral_of_number {negative : Bool} {text rest : List Char} {json : Json}
    (h : number negative text = .ok (json, rest)) : ∃ w, IsNumeral w ∧ text = w ++ rest := by
  obtain ⟨⟨sig, surplus, mid⟩, readWhole, h⟩ := bind_eq_ok_iff.mp h
  obtain ⟨⟨next, places, mid'⟩, readFraction, h⟩ := bind_eq_ok_iff.mp h
  obtain ⟨⟨shift, last⟩, readExponent, h⟩ := bind_eq_ok_iff.mp h
  have same : last = rest := by
    dsimp only at h
    split at h <;> cases h
    rfl
  obtain ⟨whole, isWhole, rfl⟩ := exists_isWhole_of_wholePart readWhole
  obtain ⟨fraction, isFraction, rfl⟩ := exists_isFraction_of_fractionPart readFraction
  obtain ⟨exponent, isExponent, rfl⟩ := exists_isExponent_of_exponentPart readExponent
  exact ⟨_, .mk isWhole isFraction isExponent, by simp [same]⟩

theorem exists_isWhole_of_skipNumber {text rest : List Char} (h : skipNumber text = .ok rest) :
    ∃ w mid, IsWhole w ∧ text = w ++ mid ∧ skipFraction mid = .ok rest := by
  unfold skipNumber at h
  split at h
  · split at h
    · cases h
    · exact ⟨['0'], _, .zero, rfl, h⟩
  · rename_i nonzero
    obtain ⟨mid, read, later⟩ := bind_eq_ok_iff.mp h
    obtain ⟨c, digits, digit, all, rfl⟩ := exists_digits_of_skipDigits read
    exact ⟨_, mid, .more digit (fun zero => nonzero _ (congrArg (· :: _) zero)) all, rfl, later⟩

theorem exists_isFraction_of_skipFraction {text rest : List Char}
    (h : skipFraction text = .ok rest) :
    ∃ f e, IsFraction f ∧ IsExponent e ∧ text = f ++ (e ++ rest) := by
  unfold skipFraction at h
  split at h
  · obtain ⟨mid, read, later⟩ := bind_eq_ok_iff.mp h
    obtain ⟨c, digits, digit, all, rfl⟩ := exists_digits_of_skipDigits read
    obtain ⟨e, isExponent, rfl⟩ := exists_isExponent_of_skipExponent later
    exact ⟨_, e, .some digit all, isExponent, rfl⟩
  · obtain ⟨e, isExponent, rfl⟩ := exists_isExponent_of_skipExponent h
    exact ⟨[], e, .none, isExponent, rfl⟩

/-- A number that is passed over is one, whatever it would be read as. -/
theorem exists_isNumeral_of_skipNumber {text rest : List Char}
    (h : skipNumber text = .ok rest) : ∃ w, IsNumeral w ∧ text = w ++ rest := by
  obtain ⟨whole, mid, isWhole, rfl, later⟩ := exists_isWhole_of_skipNumber h
  obtain ⟨fraction, exponent, isFraction, isExponent, rfl⟩ :=
    exists_isFraction_of_skipFraction later
  exact ⟨_, .mk isWhole isFraction isExponent, by simp⟩

/-! ## Strings and scalars -/

theorem exists_isBody_of_skipString {left : Nat} {text rest : List Char}
    (h : skipString left text = .ok rest) : ∃ body, IsBody body ∧ text = body ++ '"' :: rest := by
  induction left generalizing text with
  | zero => cases h
  | succ left ih =>
    unfold skipString at h
    split at h
    · cases h
    · cases h
    · cases h
    · cases h
      exact ⟨[], .nil, rfl⟩
    · rename_i same
      obtain rfl := Nat.succ.inj same
      obtain ⟨⟨n, mid⟩, read, later⟩ := bind_eq_ok_iff.mp h
      obtain ⟨a, b, c, d, code, rfl⟩ := codes_of_fourHex read
      obtain ⟨body, valid, rfl⟩ := ih later
      exact ⟨_, .code code valid, rfl⟩
    · rename_i same
      obtain rfl := Nat.succ.inj same
      split at h
      · rename_i known
        obtain ⟨body, valid, rfl⟩ := ih h
        obtain ⟨⟨letter, c⟩, short, rfl⟩ := List.mem_map.mp
          (show _ ∈ shortEscapes.map Prod.fst from known)
        exact ⟨_, .short short valid, rfl⟩
      · cases h
    · rename_i c later ended quote _ escaped same
      obtain rfl := Nat.succ.inj same
      have slash : c ≠ '\\' := fun same => by
        cases later with
        | nil => exact ended same rfl
        | cons d later => exact escaped d later same rfl
      split at h
      · cases h
      · rename_i visible
        obtain ⟨body, valid, rfl⟩ := ih h
        exact ⟨_, .plain visible quote slash valid, rfl⟩

theorem eq_append_of_word {cs text rest : List Char} (h : word cs text = .ok rest) :
    text = cs ++ rest := by
  induction cs generalizing text with
  | nil =>
    cases h
    rfl
  | cons c cs ih =>
    cases text with
    | nil => cases h
    | cons d text =>
      rw [word] at h
      split at h
      · rename_i same
        rw [same, ih h, List.cons_append]
      · cases h

theorem exists_isValue_of_scalar {text rest : List Char} {json : Json}
    (h : scalar text = .ok (json, rest)) : ∃ w, IsValue w ∧ text = w ++ rest := by
  unfold scalar at h
  split at h
  · cases h
  · obtain ⟨_, read, done⟩ := bind_eq_ok_iff.mp h
    cases done
    exact ⟨_, .null, congrArg _ (eq_append_of_word read)⟩
  · obtain ⟨_, read, done⟩ := bind_eq_ok_iff.mp h
    cases done
    exact ⟨_, .yes, congrArg _ (eq_append_of_word read)⟩
  · obtain ⟨_, read, done⟩ := bind_eq_ok_iff.mp h
    cases done
    exact ⟨_, .no, congrArg _ (eq_append_of_word read)⟩
  · obtain ⟨w, numeral, rfl⟩ := exists_isNumeral_of_number h
    exact ⟨_, .negative numeral, rfl⟩
  · obtain ⟨⟨s, _⟩, read, done⟩ := bind_eq_ok_iff.mp h
    cases done
    obtain ⟨body, spelled, rfl⟩ := exists_spells_of_quotedRest read
    exact ⟨_, .string spelled.isBody, by simp⟩
  · split at h
    · obtain ⟨w, numeral, same⟩ := exists_isNumeral_of_number h
      exact ⟨w, .numeral numeral, same⟩
    · cases h

theorem exists_isValue_of_skipScalar {text rest : List Char} (h : skipScalar text = .ok rest) :
    ∃ w, IsValue w ∧ text = w ++ rest := by
  unfold skipScalar at h
  split at h
  · cases h
  · exact ⟨_, .null, congrArg _ (eq_append_of_word h)⟩
  · exact ⟨_, .yes, congrArg _ (eq_append_of_word h)⟩
  · exact ⟨_, .no, congrArg _ (eq_append_of_word h)⟩
  · obtain ⟨w, numeral, rfl⟩ := exists_isNumeral_of_skipNumber h
    exact ⟨_, .negative numeral, rfl⟩
  · obtain ⟨body, valid, rfl⟩ := exists_isBody_of_skipString h
    exact ⟨_, .string valid, by simp⟩
  · split at h
    · obtain ⟨w, numeral, same⟩ := exists_isNumeral_of_skipNumber h
      exact ⟨w, .numeral numeral, same⟩
    · cases h

/-! ## Lists and objects -/

/-- A value in front of the rest of its container is an item of it. -/
theorem exists_item {front w gap rest : List Char} {close : Char} {parts : List (List Char)}
    (blank : Blank gap) (same : skipBlank front = w ++ (enclosed false gap close parts ++ rest)) :
    ∃ i : Item, i.value = w ∧ front = i.text ++ (enclosed false [] close parts ++ rest) := by
  obtain ⟨before, blank', split⟩ := exists_blank front
  refine ⟨⟨before, w, gap, blank', blank⟩, rfl, ?_⟩
  rw [Item.text_append, ← same]
  exact split

theorem colon_cases {text rest : List Char} (h : colon text = .ok rest) :
    ∃ middle, Blank middle ∧ text = middle ++ ':' :: rest := by
  obtain ⟨middle, blank, split⟩ := exists_blank text
  unfold colon at h
  split at h
  · cases h
  · rename_i same
    cases h
    exact ⟨middle, blank, same ▸ split⟩
  · cases h

/-- A key and a colon make a member of the item behind them. -/
theorem exists_member {front body middle w gap rest : List Char} {close : Char}
    {parts : List (List Char)} {later : List Char} (blank : Blank gap)
    (key : skipBlank front = '"' :: (body ++ '"' :: later)) (sep : colon later = .ok middle)
    (same : skipBlank middle = w ++ (enclosed false gap close parts ++ rest)) :
    ∃ m : Member, m.key = body ∧ m.item.value = w ∧
      front = m.text ++ (enclosed false [] close parts ++ rest) := by
  obtain ⟨before, blank', split⟩ := exists_blank front
  obtain ⟨between, blank'', rfl⟩ := colon_cases sep
  obtain ⟨i, value, rfl⟩ := exists_item blank same
  refine ⟨⟨before, body, between, i, blank', blank''⟩, rfl, value, ?_⟩
  rw [split, key]
  simp [Member.text]

theorem nextItem_cases {first : Bool} {text : List Char} {next : NextItem}
    (h : nextItem first text = .ok next) :
    ∃ gap, Blank gap ∧ ((∃ rest, next = .done rest ∧ text = gap ++ ']' :: rest) ∨
      ∃ front, next = .item (skipBlank front) ∧
        text = (if first then [] else gap ++ [',']) ++ front) := by
  obtain ⟨gap, blank, split⟩ := exists_blank text
  refine ⟨gap, blank, ?_⟩
  unfold nextItem at h
  split at h
  · cases h
  · rename_i same
    cases h
    exact .inl ⟨_, rfl, same ▸ split⟩
  · rename_i same
    split at h
    · rename_i start
      cases h
      exact .inr ⟨text, by rw [same], by rw [if_pos start]; rfl⟩
    · rename_i inside
      split at h
      · rename_i comma
        split at h
        · cases h
        · cases h
        · cases h
          refine .inr ⟨_, rfl, ?_⟩
          rw [if_neg inside, List.append_assoc, List.singleton_append, ← comma, ← same]
          exact split
      · cases h

/-- What the reader takes from the front of a text has this form. -/
def Takes (P : List Char → Prop) (read : List Char → Reading (α × List Char)) : Prop :=
  ∀ text x rest, read text = .ok (x, rest) → ∃ w, P w ∧ skipBlank text = w ++ rest

theorem Takes.mono {P Q : List Char → Prop} {read : List Char → Reading (α × List Char)}
    (h : Takes P read) (weaker : ∀ w, P w → Q w) : Takes Q read := by
  intro text x rest whole
  obtain ⟨w, holds, same⟩ := h text x rest whole
  exact ⟨w, weaker w holds, same⟩

theorem Takes.of_reads {P : List Char → Prop} {read : List Char → Reading (α × List Char)}
    (h : Takes P read) {written : List Char} {x : α} (reads : Reads read written x) :
    P written := by
  have front := reads.skipBlank_append []
  obtain ⟨w, holds, same⟩ := h _ _ _ (reads.reads front ends_nil)
  rw [front, List.append_nil, List.append_nil] at same
  exact same ▸ holds

/-- What the reader takes of a member is a colon and a value. -/
def TakesMembers (member : σ → String → List Char → Reading (σ × List Char)) : Prop :=
  ∀ state name text next rest, member state name text = .ok (next, rest) →
    ∃ later w, colon text = .ok later ∧ IsValue w ∧ skipBlank later = w ++ rest

theorem Takes.items {P : List Char → Prop} {read : List Char → Reading (α × List Char)}
    (h : Takes P read) {left : Nat} {first : Bool} {text rest : List Char} {xs : List α}
    (done : Json.items read left first text = .ok (xs, rest)) :
    ∃ gap, ∃ items : List Item, Blank gap ∧ (∀ i ∈ items, P i.value) ∧
      text = enclosed first gap ']' (items.map Item.text) ++ rest := by
  induction left generalizing first text xs with
  | zero => cases done
  | succ left ih =>
    obtain ⟨next, found, step⟩ := bind_eq_ok_iff.mp done
    obtain ⟨gap, blank, ⟨rest, rfl, rfl⟩ | ⟨front, rfl, rfl⟩⟩ := nextItem_cases found
    · cases step
      exact ⟨gap, [], blank, nofun, by simp [enclosed]⟩
    · obtain ⟨⟨x, mid⟩, head, step⟩ := bind_eq_ok_iff.mp step
      obtain ⟨⟨xs, rest⟩, tail, step⟩ := bind_eq_ok_iff.mp step
      cases step
      obtain ⟨w, value, same⟩ := h _ _ _ head
      obtain ⟨after, items, blank', values, rfl⟩ := ih tail
      rw [skipBlank_skipBlank] at same
      obtain ⟨i, rfl, rfl⟩ := exists_item blank' same
      refine ⟨gap, i :: items, blank, List.forall_mem_cons.mpr ⟨value, values⟩, ?_⟩
      simp [enclosed]

theorem memberKey_cases {text : List Char} {next : NextKey} (h : memberKey text = .ok next) :
    ∃ name rest body, next = .key name rest ∧ Spells body name.toList ∧
      text = '"' :: (body ++ '"' :: rest) := by
  unfold memberKey at h
  split at h
  · cases h
  · obtain ⟨⟨name, rest⟩, read, done⟩ := bind_eq_ok_iff.mp h
    cases done
    obtain ⟨body, spelled, rfl⟩ := exists_spells_of_quotedRest read
    exact ⟨name, rest, body, rfl, spelled, rfl⟩
  · cases h
  · cases h

theorem nextKey_cases {first : Bool} {text : List Char} {next : NextKey}
    (h : nextKey first text = .ok next) :
    ∃ gap, Blank gap ∧ ((∃ rest, next = .done rest ∧ text = gap ++ '\x7d' :: rest) ∨
      ∃ front, memberKey (skipBlank front) = .ok next ∧
        text = (if first then [] else gap ++ [',']) ++ front) := by
  obtain ⟨gap, blank, split⟩ := exists_blank text
  refine ⟨gap, blank, ?_⟩
  unfold nextKey at h
  split at h
  · cases h
  · rename_i same
    cases h
    exact .inl ⟨_, rfl, same ▸ split⟩
  · rename_i same
    split at h
    · rename_i start
      exact .inr ⟨text, by rw [same, h], by rw [if_pos start]; rfl⟩
    · rename_i inside
      split at h
      · rename_i comma
        refine .inr ⟨_, h, ?_⟩
        rw [if_neg inside, List.append_assoc, List.singleton_append, ← comma, ← same]
        exact split
      · cases h

theorem TakesMembers.fields {member : σ → String → List Char → Reading (σ × List Char)}
    (h : TakesMembers member) {left : Nat} {first : Bool} {state last : σ}
    {text rest : List Char} (done : Json.fields member left first state text = .ok (last, rest)) :
    ∃ gap, ∃ members : List Member, ∃ pairs, Blank gap ∧
      (∀ m ∈ members, IsValue m.item.value) ∧ List.Forall₂ Member.Named members pairs ∧
      text = enclosed first gap '\x7d' (members.map Member.text) ++ rest := by
  induction left generalizing first text state with
  | zero => cases done
  | succ left ih =>
    obtain ⟨next, found, step⟩ := bind_eq_ok_iff.mp done
    obtain ⟨gap, blank, ⟨rest, rfl, rfl⟩ | ⟨front, key, rfl⟩⟩ := nextKey_cases found
    · cases step
      exact ⟨gap, [], [], blank, nofun, .nil, by simp [enclosed]⟩
    · obtain ⟨name, later, body, rfl, spelled, quoted⟩ := memberKey_cases key
      obtain ⟨⟨state, mid⟩, head, tail⟩ := bind_eq_ok_iff.mp step
      obtain ⟨behind, w, sep, value, same⟩ := h _ _ _ _ _ head
      obtain ⟨after, members, pairs, blank', values, named, rfl⟩ := ih tail
      obtain ⟨m, rfl, rfl, rfl⟩ := exists_member blank' quoted sep same
      refine ⟨gap, m :: members, (name, m.item.value) :: pairs, blank,
        List.forall_mem_cons.mpr ⟨value, values⟩, .cons ⟨spelled, rfl⟩ named, ?_⟩
      simp [enclosed]

/-! ## Values that are read -/

/-- A list whose items have this form. -/
def IsListOf (P : List Char → Prop) (text : List Char) : Prop :=
  ∃ values, IsList text values ∧ ∀ value ∈ values, P value

theorem IsListOf.isValue {P : List Char → Prop} {text : List Char} (h : IsListOf P text) :
    IsValue text := by
  obtain ⟨values, isList, -⟩ := h
  exact isList.isValue

theorem Takes.isList {P : List Char → Prop} {read : List Char → Reading (α × List Char)}
    (h : Takes P read) (valid : ∀ w, P w → IsValue w) {left : Nat} {text rest : List Char}
    {xs : List α} (done : Json.items read left true text = .ok (xs, rest)) :
    ∃ w, IsListOf P w ∧ '[' :: text = w ++ rest := by
  obtain ⟨gap, items, blank, each, rfl⟩ := h.items done
  exact ⟨_, ⟨_, ⟨gap, items, rfl, blank, fun i mem => valid _ (each i mem), rfl⟩,
    List.forall_mem_map.mpr each⟩, rfl⟩

theorem TakesMembers.isObject {member : σ → String → List Char → Reading (σ × List Char)}
    (h : TakesMembers member) {left : Nat} {state last : σ} {text rest : List Char}
    (done : Json.fields member left true state text = .ok (last, rest)) :
    ∃ w pairs, IsObject w pairs ∧ '\x7b' :: text = w ++ rest := by
  obtain ⟨gap, members, pairs, blank, values, named, rfl⟩ := h.fields done
  exact ⟨_, pairs, ⟨gap, members, rfl, blank, values, named⟩, rfl⟩

theorem takes_value (depth : Nat) : Takes IsValue (value depth) := by
  induction depth with
  | zero =>
    intro text x rest h
    unfold value at h
    split at h
    · cases h
    · cases h
    · exact exists_isValue_of_scalar h
  | succ depth ih =>
    intro text x rest h
    unfold value at h
    split at h
    · rename_i same
      obtain ⟨⟨xs, r⟩, read, done⟩ := bind_eq_ok_iff.mp h
      cases done
      obtain ⟨w, ⟨values, isList, -⟩, split⟩ := ih.isList (fun _ value => value) read
      exact ⟨w, isList.isValue, same.trans split⟩
    · rename_i same
      obtain ⟨⟨members, r⟩, read, done⟩ := bind_eq_ok_iff.mp h
      cases done
      have member : TakesMembers (addMember depth) := by
        intro state name text next rest h
        obtain ⟨later, sep, h⟩ := bind_eq_ok_iff.mp h
        obtain ⟨⟨x, r⟩, read, done⟩ := bind_eq_ok_iff.mp h
        cases done
        obtain ⟨w, value, same⟩ := ih _ _ _ read
        exact ⟨later, w, sep, value, same⟩
      obtain ⟨w, pairs, isObject, split⟩ := member.isObject read
      exact ⟨w, isObject.isValue, same.trans split⟩
    · exact exists_isValue_of_scalar h

/-! ## Values that are skipped -/

/-- A part of a container of this kind. -/
def Frame.IsPart : Frame → List Char → Prop
  | .list, part => ∃ i : Item, IsValue i.value ∧ part = i.text
  | .object, part => ∃ m : Member, (IsBody m.key ∧ IsValue m.item.value) ∧ part = m.text

/-- What stands behind a value, up to the end of all that is open around it. -/
inductive Closes : List Frame → List Char → List Char → Prop where
  | nil (rest : List Char) : Closes [] rest rest
  | cons {frame : Frame} {frames : List Frame} {gap : List Char} {parts : List (List Char)}
      {mid rest : List Char} (blank : Blank gap) (valid : ∀ part ∈ parts, frame.IsPart part)
      (tail : Closes frames mid rest) :
      Closes (frame :: frames) (enclosed false gap frame.closing parts ++ mid) rest

/-- The next value in what is open, and all behind it; nothing is next if all is closed. -/
def Leaves (frames : List Frame) (text rest : List Char) : Prop :=
  (frames = [] ∧ text = rest) ∨
    (frames ≠ [] ∧ ∃ w mid, IsValue w ∧ skipBlank text = w ++ mid ∧ Closes frames mid rest)

/-- Behind what the reader passes over in front of a value, there is a part of the container. -/
theorem exists_part {frame : Frame} {frames : List Frame} {front text next w gap rest : List Char}
    {parts : List (List Char)} (start : skipBlank text = skipBlank front)
    (key : skipKey (frame :: frames) text = .ok next) (value : IsValue w) (blank : Blank gap)
    (same : skipBlank next = w ++ (enclosed false gap frame.closing parts ++ rest)) :
    ∃ part, frame.IsPart part ∧
      front = part ++ (enclosed false [] frame.closing parts ++ rest) := by
  cases frame with
  | list =>
    cases key
    obtain ⟨i, rfl, rfl⟩ := exists_item blank (start.symm.trans same)
    exact ⟨_, ⟨i, value, rfl⟩, rfl⟩
  | object =>
    unfold skipKey at key
    dsimp only at key
    split at key
    · cases key
    · rename_i later quoted
      obtain ⟨mid, body, sep⟩ := bind_eq_ok_iff.mp key
      obtain ⟨body, valid, rfl⟩ := exists_isBody_of_skipString body
      obtain ⟨m, rfl, rfl, rfl⟩ := exists_member blank (start.symm.trans quoted) sep same
      exact ⟨_, ⟨m, ⟨valid, value⟩, rfl⟩, rfl⟩
    · cases key

/-- If a value is next in a container, the parts up to its end start there. -/
theorem Leaves.exists_parts {frame : Frame} {frames : List Frame} {front text next rest : List Char}
    (leaves : Leaves (frame :: frames) next rest) (start : skipBlank text = skipBlank front)
    (key : skipKey (frame :: frames) text = .ok next) :
    ∃ part parts mid, (∀ p ∈ part :: parts, frame.IsPart p) ∧
      front = part ++ (enclosed false [] frame.closing parts ++ mid) ∧ Closes frames mid rest := by
  obtain ⟨closed, -⟩ | ⟨-, w, behind, value, same, closes⟩ := leaves
  · cases closed
  · cases closes with
    | @cons _ _ _ parts mid _ blank valid tail =>
      obtain ⟨part, isPart, split⟩ := exists_part start key value blank same
      exact ⟨part, parts, mid, List.forall_mem_cons.mpr ⟨isPart, valid⟩, split, tail⟩

theorem closes_of_closeFrames {frames frames' : List Frame} {text mid next rest : List Char}
    (h : closeFrames frames text = .ok (frames', mid)) (key : skipKey frames' mid = .ok next)
    (leaves : Leaves frames' next rest) : Closes frames text rest := by
  induction frames generalizing text with
  | nil =>
    cases h
    cases key
    obtain ⟨-, rfl⟩ | ⟨opened, -⟩ := leaves
    · exact .nil _
    · exact absurd rfl opened
  | cons frame frames ih =>
    obtain ⟨gap, blank, split⟩ := exists_blank text
    unfold closeFrames at h
    split at h
    · cases h
    · rename_i c later same
      rw [same] at split
      split at h
      · -- a comma: the next part of the innermost container follows
        rename_i comma
        cases h
        obtain ⟨part, parts, behind, valid, rfl, tail⟩ := leaves.exists_parts rfl key
        rw [split, comma, ← enclosed_false_append]
        exact .cons blank valid tail
      · split at h
        · -- a closing bracket: nothing is left of it, and the next container goes on
          rename_i closing
          rw [split, closing, List.append_cons]
          exact @Closes.cons frame _ gap [] later _ blank nofun (ih h)
        · cases h

theorem closes_of_afterValue {frames frames' : List Frame} {text next rest : List Char}
    (h : afterValue frames text = .ok (frames', next)) (leaves : Leaves frames' next rest) :
    Closes frames text rest := by
  obtain ⟨⟨frames', mid⟩, closed, h⟩ := bind_eq_ok_iff.mp h
  obtain ⟨next, key, done⟩ := bind_eq_ok_iff.mp h
  cases done
  exact closes_of_closeFrames closed key leaves

/-- Behind an opening bracket stand the parts of the container. -/
theorem exists_parts_of_afterOpening {frame : Frame} {frames frames' : List Frame}
    {inner next rest : List Char} (h : afterOpening frame frames inner = .ok (frames', next))
    (leaves : Leaves frames' next rest) :
    ∃ gap parts mid, Blank gap ∧ (∀ part ∈ parts, frame.IsPart part) ∧
      inner = enclosed true gap frame.closing parts ++ mid ∧ Closes frames mid rest := by
  obtain ⟨gap, blank, split⟩ := exists_blank inner
  unfold afterOpening at h
  split at h
  · cases h
  · rename_i c later same
    split at h
    · rename_i closing
      refine ⟨gap, [], later, blank, nofun, ?_, closes_of_afterValue h leaves⟩
      rw [split, same, closing]
      simp [enclosed]
    · obtain ⟨next, key, done⟩ := bind_eq_ok_iff.mp h
      cases done
      have start : skipBlank (c :: later) = skipBlank inner := by
        rw [← same, skipBlank_skipBlank]
      obtain ⟨part, parts, mid, valid, rfl, tail⟩ := leaves.exists_parts start key
      exact ⟨[], part :: parts, mid, blank_nil, valid, (enclosed_true_append ..).symm, tail⟩

theorem exists_eq_map {α β : Type} {p : α → Prop} {f : α → β} {ys : List β}
    (h : ∀ y ∈ ys, ∃ x, p x ∧ y = f x) : ∃ xs : List α, (∀ x ∈ xs, p x) ∧ ys = xs.map f := by
  induction ys with
  | nil => exact ⟨[], nofun, rfl⟩
  | cons y ys ih =>
    obtain ⟨⟨x, holds, rfl⟩, tail⟩ := List.forall_mem_cons.mp h
    obtain ⟨xs, all, rfl⟩ := ih tail
    exact ⟨x :: xs, List.forall_mem_cons.mpr ⟨holds, all⟩, rfl⟩

/-- From what is open on, a value is skipped and then all that its containers still hold. -/
theorem exists_isValue_of_skipWithin {left : Nat} {frames : List Frame} {text rest : List Char}
    (h : skipWithin left frames text = .ok rest) :
    ∃ w mid, IsValue w ∧ skipBlank text = w ++ mid ∧ Closes frames mid rest := by
  induction left generalizing frames text with
  | zero => cases h
  | succ left ih =>
    rw [skipWithin_succ] at h
    obtain ⟨frames', next, step, leaves⟩ : ∃ frames' next,
        skipStep frames text = .ok (frames', next) ∧ Leaves frames' next rest := by
      rcases step : skipStep frames text with _ | ⟨_ | ⟨frame, frames'⟩, next⟩ <;> rw [step] at h
      · cases h
      · cases h
        exact ⟨_, _, rfl, .inl ⟨rfl, rfl⟩⟩
      · exact ⟨_, _, rfl, .inr ⟨nofun, ih h⟩⟩
    unfold skipStep at step
    split at step
    · rename_i same
      obtain ⟨gap, parts, mid, blank, valid, rfl, closes⟩ :=
        exists_parts_of_afterOpening step leaves
      obtain ⟨items, values, rfl⟩ := exists_eq_map valid
      exact ⟨_, mid, .list blank values, same, closes⟩
    · rename_i same
      obtain ⟨gap, parts, mid, blank, valid, rfl, closes⟩ :=
        exists_parts_of_afterOpening step leaves
      obtain ⟨members, each, rfl⟩ := exists_eq_map valid
      exact ⟨_, mid, .object blank (fun m mem => (each m mem).1) fun m mem => (each m mem).2,
        same, closes⟩
    · obtain ⟨mid, read, after⟩ := bind_eq_ok_iff.mp step
      obtain ⟨w, value, same⟩ := exists_isValue_of_skipScalar read
      exact ⟨w, mid, value, same, closes_of_afterValue after leaves⟩

/-- What is skipped is a value of the grammar. -/
theorem exists_isValue_of_skip {text rest : List Char} (h : Json.skip text = .ok rest) :
    ∃ w, IsValue w ∧ skipBlank text = w ++ rest := by
  obtain ⟨w, mid, value, same, closes⟩ := exists_isValue_of_skipWithin h
  cases closes
  exact ⟨w, value, same⟩

end RobotProgram.Json
