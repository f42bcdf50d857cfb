import RobotProgram.Proofs.Json.Grammar

/-!
# Strings and numbers by the grammar

A string of the grammar is read as what it spells, or not at all if it spells nothing; a number is
read as one and the same number, or not at all if it is out of range. Whoever passes over them
passes over all of them.

## Main results

* `Json.stringRest_of_spells`, `Json.exists_spells_of_stringRest`: a string is read as what it
  spells.
* `Json.exists_number`: what comes of reading a number does not depend on what follows it.
* `Json.skipString_of_isBody`, `Json.skipNumber_of_isNumeral`: strings and numbers are passed over.
-/

namespace RobotProgram.Json

/-! ## Strings -/

theorem fourHex_of_codes {a b c d : Char} {n : Nat} (h : Codes a b c d n) (rest : List Char) :
    fourHex (a :: b :: c :: d :: rest) = .ok (n, rest) := by
  obtain ⟨i, j, k, l, ha, hb, hc, hd, rfl⟩ := h
  simp only [fourHex, ha, hb, hc, hd]

theorem escape_of_short {letter c : Char} (known : (letter, c) ∈ shortEscapes)
    (rest : List Char) : escape (letter :: rest) = .ok (c, rest) := by
  simp only [shortEscapes, List.mem_cons, Prod.mk.injEq, List.not_mem_nil, or_false] at known
  rcases known with ⟨rfl, rfl⟩ | ⟨rfl, rfl⟩ | ⟨rfl, rfl⟩ | ⟨rfl, rfl⟩ | ⟨rfl, rfl⟩ | ⟨rfl, rfl⟩ |
    ⟨rfl, rfl⟩ | ⟨rfl, rfl⟩ <;> rfl

theorem stringRest_plain {c : Char} (visible : ¬ c.toNat < 32) (quote : c ≠ '"')
    (slash : c ≠ '\\') (left : Nat) (text : List Char) :
    stringRest (left + 1) (c :: text) =
      (stringRest left text >>= fun read => .ok (c :: read.1, read.2)) := by
  rw [stringRest.eq_5 _ _ _ quote slash, if_neg visible]

theorem stringRest_escape {text rest : List Char} {c : Char} (h : escape text = .ok (c, rest))
    (left : Nat) :
    stringRest (left + 1) ('\\' :: text) =
      (stringRest left rest >>= fun read => .ok (c :: read.1, read.2)) := by
  rw [stringRest, h, ok_bind]

theorem stringRest_code {text rest : List Char} {c : Char} (h : codeEscape text = .ok (c, rest))
    (left : Nat) :
    stringRest (left + 1) ('\\' :: 'u' :: text) =
      (stringRest left rest >>= fun read => .ok (c :: read.1, read.2)) :=
  @stringRest_escape ('u' :: text) rest c h left

theorem codeEscape_single {a b c d : Char} {n : Nat} (code : Codes a b c d n)
    (leading : isLeading n = false) (trailing : isTrailing n = false) (rest : List Char) :
    codeEscape (a :: b :: c :: d :: rest) = .ok (Char.ofNat n, rest) := by
  rw [codeEscape, fourHex_of_codes code, ok_bind]
  simp [leading, trailing]

theorem not_isTrailing_of_isLeading {n : Nat} (leading : isLeading n = true) :
    isTrailing n = false := by
  simp only [isLeading, isTrailing, Bool.and_eq_true, decide_eq_true_eq] at leading ⊢
  simp only [Bool.and_eq_false_iff, decide_eq_false_iff_not]
  omega

theorem codeEscape_pair {a b c d a' b' c' d' : Char} {n m : Nat} (first : Codes a b c d n)
    (leading : isLeading n = true) (second : Codes a' b' c' d' m) (rest : List Char) :
    codeEscape (a :: b :: c :: d :: '\\' :: 'u' :: a' :: b' :: c' :: d' :: rest) =
      if isTrailing m then
        .ok (Char.ofNat (0x10000 + (n - 0xD800) * 0x400 + (m - 0xDC00)), rest)
      else .error .loneSurrogate := by
  have trailing := not_isTrailing_of_isLeading leading
  rw [codeEscape, fourHex_of_codes first, ok_bind]
  simp only [leading, trailing, Bool.false_eq_true, if_false, Bool.not_true]
  rw [fourHex_of_codes second, ok_bind]

theorem codes_of_fourHex {text rest : List Char} {n : Nat} (h : fourHex text = .ok (n, rest)) :
    ∃ a b c d, Codes a b c d n ∧ text = a :: b :: c :: d :: rest := by
  unfold fourHex at h
  split at h
  · split at h
    · rename_i ha hb hc hd
      cases h
      exact ⟨_, _, _, _, ⟨_, _, _, _, ha, hb, hc, hd, rfl⟩, rfl⟩
    · cases h
  · split at h <;> cases h

/-- A code that is read stands alone or, if it is a leading surrogate, in front of its partner. -/
theorem codeEscape_cases {text rest : List Char} {x : Char}
    (h : codeEscape text = .ok (x, rest)) :
    (∃ a b c d n, Codes a b c d n ∧ isLeading n = false ∧ isTrailing n = false ∧
        x = Char.ofNat n ∧ text = a :: b :: c :: d :: rest) ∨
      ∃ a b c d n a' b' c' d' m, Codes a b c d n ∧ isLeading n = true ∧ Codes a' b' c' d' m ∧
        isTrailing m = true ∧
        x = Char.ofNat (0x10000 + (n - 0xD800) * 0x400 + (m - 0xDC00)) ∧
        text = a :: b :: c :: d :: '\\' :: 'u' :: a' :: b' :: c' :: d' :: rest := by
  obtain ⟨⟨n, mid⟩, first, h⟩ := bind_eq_ok_iff.mp h
  obtain ⟨a, b, c, d, code, same⟩ := codes_of_fourHex first
  dsimp only at h
  split at h
  · cases h
  · rename_i trailing
    split at h
    · rename_i leading
      rw [Except.ok.injEq, Prod.mk.injEq] at h
      obtain ⟨rfl, rfl⟩ := h
      exact .inl ⟨a, b, c, d, n, code, by simpa using leading, by simpa using trailing, rfl, same⟩
    · rename_i leading
      split at h
      · cases h
      · cases h
      · obtain ⟨⟨m, mid⟩, second, done⟩ := bind_eq_ok_iff.mp h
        obtain ⟨a', b', c', d', code', rfl⟩ := codes_of_fourHex second
        dsimp only at done
        split at done
        · rename_i partner
          rw [Except.ok.injEq, Prod.mk.injEq] at done
          obtain ⟨rfl, rfl⟩ := done
          exact .inr ⟨a, b, c, d, n, a', b', c', d', m, code, by simpa using leading, code',
            partner, rfl, same⟩
        · cases done
      · cases h

/-- What is read behind a backslash is a letter that stands for a character, or its code. -/
theorem escape_cases {text rest : List Char} {x : Char} (h : escape text = .ok (x, rest)) :
    (∃ letter, (letter, x) ∈ shortEscapes ∧ text = letter :: rest) ∨
      ∃ later, text = 'u' :: later ∧ codeEscape later = .ok (x, rest) := by
  unfold escape at h
  split at h
  case h_10 => exact .inr ⟨_, rfl, h⟩
  case h_1 | h_11 => cases h
  all_goals
    cases h
    exact .inl ⟨_, by decide, rfl⟩

/-- A string is read as what it spells. -/
theorem stringRest_of_spells {body cs : List Char} (h : Spells body cs) {left : Nat}
    (enough : body.length < left) (rest : List Char) :
    stringRest left (body ++ '"' :: rest) = .ok (cs, rest) := by
  induction h generalizing left with
  | nil =>
    obtain ⟨left, rfl⟩ := Nat.exists_eq_succ_of_ne_zero (Nat.ne_of_gt enough)
    rfl
  | plain visible quote slash _ ih =>
    obtain ⟨left, rfl⟩ := Nat.exists_eq_succ_of_ne_zero (Nat.ne_zero_of_lt enough)
    rw [List.cons_append, stringRest_plain visible quote slash, ih (by simpa using enough)]
    rfl
  | short known _ ih =>
    obtain ⟨left, rfl⟩ := Nat.exists_eq_succ_of_ne_zero (Nat.ne_zero_of_lt enough)
    simp only [List.length_cons] at enough
    rw [List.cons_append, List.cons_append, stringRest_escape (escape_of_short known _),
      ih (by omega)]
    rfl
  | code code leading trailing _ ih =>
    obtain ⟨left, rfl⟩ := Nat.exists_eq_succ_of_ne_zero (Nat.ne_zero_of_lt enough)
    simp only [List.length_cons] at enough
    have read := codeEscape_single code leading trailing
    simp only [List.cons_append]
    rw [stringRest_code (read _), ih (by omega)]
    rfl
  | pair first leading second trailing _ ih =>
    obtain ⟨left, rfl⟩ := Nat.exists_eq_succ_of_ne_zero (Nat.ne_zero_of_lt enough)
    simp only [List.length_cons] at enough
    have read := codeEscape_pair first leading second
    simp only [trailing, if_true] at read
    simp only [List.cons_append]
    rw [stringRest_code (read _), ih (by omega)]
    rfl

/-- What is read of a string is what its body spells, up to the quotation mark. -/
theorem exists_spells_of_stringRest {left : Nat} {text cs rest : List Char}
    (h : stringRest left text = .ok (cs, rest)) :
    ∃ body, Spells body cs ∧ text = body ++ '"' :: rest := by
  induction left generalizing text cs with
  | zero => cases h
  | succ left ih =>
    unfold stringRest at h
    split at h
    · cases h
    · cases h
    · cases h
      exact ⟨[], .nil, rfl⟩
    · rename_i same
      obtain rfl := Nat.succ.inj same
      obtain ⟨⟨x, mid⟩, escaped, h⟩ := bind_eq_ok_iff.mp h
      obtain ⟨⟨cs, rest⟩, read, done⟩ := bind_eq_ok_iff.mp h
      cases done
      obtain ⟨body, spelled, rfl⟩ := ih read
      obtain ⟨letter, known, rfl⟩ | ⟨later, rfl, escaped⟩ := escape_cases escaped
      · exact ⟨_, .short known spelled, rfl⟩
      · obtain ⟨a, b, c, d, n, code, leading, trailing, same, rfl⟩ | ⟨a, b, c, d, n, a', b', c', d',
          m, code, leading, code', trailing, same, rfl⟩ := codeEscape_cases escaped <;> rw [same]
        · exact ⟨_, .code code leading trailing spelled, rfl⟩
        · exact ⟨_, .pair code leading code' trailing spelled, rfl⟩
    · rename_i quote slash same
      obtain rfl := Nat.succ.inj same
      split at h
      · cases h
      · rename_i visible
        obtain ⟨⟨cs, rest⟩, read, done⟩ := bind_eq_ok_iff.mp h
        cases done
        obtain ⟨body, spelled, rfl⟩ := ih read
        exact ⟨_, .plain visible quote slash spelled, rfl⟩

theorem Spells.unique {body cs cs' : List Char} (h : Spells body cs) (h' : Spells body cs') :
    cs = cs' := by
  have read := stringRest_of_spells h (Nat.lt_succ_self _) []
  rw [stringRest_of_spells h' (Nat.lt_succ_self _) []] at read
  cases read
  rfl

/-- A member has one name and one value. -/
theorem Member.rightUnique_named : Relator.RightUnique Member.Named := by
  rintro m ⟨name, value⟩ ⟨name', value'⟩ ⟨spelled, rfl⟩ ⟨spelled', rfl⟩
  exact congrArg (·, m.item.value) (String.toList_inj.mp (spelled.unique spelled'))

theorem quotedRest_of_spells {body : List Char} {s : String} (h : Spells body s.toList)
    (rest : List Char) : quotedRest (body ++ '"' :: rest) = .ok (s, rest) := by
  have enough : body.length < (body ++ '"' :: rest).length + 1 := by
    rw [List.length_append]
    omega
  rw [quotedRest, stringRest_of_spells h enough, ok_bind]
  exact congrArg (fun s => Except.ok (s, rest)) String.ofList_toList

theorem skipString_of_isBody {body : List Char} (h : IsBody body) {left : Nat}
    (enough : body.length < left) (rest : List Char) :
    skipString left (body ++ '"' :: rest) = .ok rest := by
  induction h generalizing left with
  | nil =>
    obtain ⟨left, rfl⟩ := Nat.exists_eq_succ_of_ne_zero (Nat.ne_of_gt enough)
    rfl
  | plain visible quote slash _ ih =>
    obtain ⟨left, rfl⟩ := Nat.exists_eq_succ_of_ne_zero (Nat.ne_zero_of_lt enough)
    rw [List.cons_append, skipString, if_neg visible, ih (by simpa using enough)]
    all_goals simp_all
  | @short letter c text known _ ih =>
    obtain ⟨left, rfl⟩ := Nat.exists_eq_succ_of_ne_zero (Nat.ne_zero_of_lt enough)
    simp only [List.length_cons] at enough
    have known' : letter ∈ ['"', '\\', '/', 'b', 'f', 'n', 'r', 't'] :=
      List.mem_map_of_mem (f := Prod.fst) known
    have other : letter ≠ 'u' := by
      rintro rfl
      revert known'
      decide
    rw [List.cons_append, List.cons_append, skipString, if_pos known', ih (by omega)]
    exact other
  | code code _ ih =>
    obtain ⟨left, rfl⟩ := Nat.exists_eq_succ_of_ne_zero (Nat.ne_zero_of_lt enough)
    simp only [List.length_cons] at enough
    simp only [List.cons_append]
    rw [skipString, fourHex_of_codes code, ok_bind]
    exact ih (by omega)

/-- A string has one end. -/
theorem IsBody.unique {body body' rest rest' : List Char} (h : IsBody body) (h' : IsBody body')
    (same : body ++ '"' :: rest = body' ++ '"' :: rest') : body = body' ∧ rest = rest' := by
  have enough : body.length < body.length + body'.length + 1 := by omega
  have enough' : body'.length < body.length + body'.length + 1 := by omega
  have passed := skipString_of_isBody h enough rest
  rw [same, skipString_of_isBody h' enough' rest'] at passed
  cases passed
  exact ⟨List.append_cancel_right same, rfl⟩

theorem exists_spells_of_quotedRest {s : String} {text rest : List Char}
    (h : quotedRest text = .ok (s, rest)) :
    ∃ body, Spells body s.toList ∧ text = body ++ '"' :: rest := by
  obtain ⟨⟨cs, r⟩, read, done⟩ := bind_eq_ok_iff.mp h
  cases done
  rw [String.toList_ofList]
  exact exists_spells_of_stringRest read

theorem spells_of_quotedRest {body : List Char} (valid : IsBody body) {s : String}
    {rest r : List Char} (h : quotedRest (body ++ '"' :: rest) = .ok (s, r)) :
    Spells body s.toList ∧ r = rest := by
  obtain ⟨body', spelled, same⟩ := exists_spells_of_quotedRest h
  obtain ⟨rfl, rfl⟩ := valid.unique spelled.isBody same
  exact ⟨spelled, rfl⟩

/-! ## Numbers -/

/-- A text that does not go on with a digit. -/
def NoDigit (rest : List Char) : Prop := ∀ c ∈ rest.head?, c.isDigit = false

theorem Ends.noDigit {rest : List Char} (ends : Ends rest) : NoDigit rest :=
  fun c front => (ends c front).1

theorem dropWhile_digits {digits rest : List Char} (all : AllDigits digits) (h : NoDigit rest) :
    (digits ++ rest).dropWhile Char.isDigit = rest := by
  rw [List.dropWhile_append_of_pos all]
  cases rest with
  | nil => rfl
  | cons c rest => exact List.dropWhile_cons_of_neg (by simp [h c rfl])

theorem takeWhile_digits {digits rest : List Char} (all : AllDigits digits) (h : NoDigit rest) :
    (digits ++ rest).takeWhile Char.isDigit = digits := by
  rw [List.takeWhile_append_of_pos all]
  cases rest with
  | nil => simp
  | cons c rest => simp [h c rfl]

/-- Of digits some are added up, and the others stay, whatever follows. -/
theorem exists_addDigits {digits : List Char} (all : AllDigits digits) (sig : Nat) :
    ∃ next count later, AllDigits later ∧ ∀ rest, NoDigit rest →
      addDigits sig (digits ++ rest) = (next, count, later ++ rest) := by
  induction digits generalizing sig with
  | nil =>
    refine ⟨sig, 0, [], all, fun rest h => ?_⟩
    cases rest with
    | nil => rfl
    | cons c rest => simp [addDigits, h c rfl]
  | cons c digits ih =>
    obtain ⟨digit, tail⟩ := List.forall_mem_cons.mp all
    by_cases fits : sig * 10 + (c.toNat - '0'.toNat) < 0x10000000000000000
    · obtain ⟨next, count, later, all', read⟩ := ih tail (sig * 10 + (c.toNat - '0'.toNat))
      refine ⟨next, count + 1, later, all', fun rest h => ?_⟩
      rw [List.cons_append, addDigits]
      simp only [digit, fits, decide_true, Bool.and_self, if_true, read rest h]
    · refine ⟨sig, 0, c :: digits, all, fun rest _ => ?_⟩
      rw [List.cons_append, addDigits]
      simp only [decide_eq_false fits, Bool.and_false, Bool.false_eq_true, if_false]

theorem exists_wholePart {text : List Char} (h : IsWhole text) :
    ∃ sig surplus, ∀ rest, NoDigit rest → wholePart (text ++ rest) = .ok (sig, surplus, rest) := by
  cases h with
  | zero =>
    refine ⟨0, 0, fun rest h => ?_⟩
    have other : ¬ (rest.head?.any Char.isDigit) = true := by
      cases rest with
      | nil => simp
      | cons c rest => simp [h c rfl]
    exact if_neg other
  | more digit nonzero digits =>
    obtain ⟨sig, count, later, all, read⟩ :=
      exists_addDigits (List.forall_mem_cons.mpr ⟨digit, digits⟩) 0
    refine ⟨sig, later.length, fun rest h => ?_⟩
    rw [List.cons_append, wholePart.eq_3 _ _ nonzero, if_pos digit, ← List.cons_append,
      read rest h]
    simp only [takeWhile_digits all h, dropWhile_digits all h]

theorem exists_fractionPart {text : List Char} (h : IsFraction text) (sig : Nat) :
    ∃ next places, ∀ rest, NoDigit rest → rest.head? ≠ some '.' →
      fractionPart sig (text ++ rest) = .ok (next, places, rest) := by
  cases h with
  | none => exact ⟨sig, none, fun rest _ => fractionPart_of_head?⟩
  | some digit digits =>
    obtain ⟨next, count, later, all, read⟩ :=
      exists_addDigits (List.forall_mem_cons.mpr ⟨digit, digits⟩) sig
    refine ⟨next, some count, fun rest h _ => ?_⟩
    rw [List.cons_append, List.cons_append, fractionPart, if_pos digit, ← List.cons_append,
      read rest h]
    simp only [dropWhile_digits all h]

theorem exists_exponentDigits {c : Char} {digits : List Char} (digit : c.isDigit = true)
    (all : AllDigits digits) (negative : Bool) :
    ∃ shift, ∀ rest, NoDigit rest →
      exponentDigits negative (c :: digits ++ rest) = .ok (some shift, rest) := by
  have all' : AllDigits (c :: digits) := List.forall_mem_cons.mpr ⟨digit, all⟩
  let n : Nat := (c :: digits).foldl (fun n c => n * 10 + (c.toNat - '0'.toNat)) 0
  refine ⟨if negative then -n else n, fun rest h => ?_⟩
  rw [List.cons_append, exponentDigits, if_pos digit, ← List.cons_append]
  simp only [takeWhile_digits all' h, dropWhile_digits all' h]
  rfl

theorem exists_exponentPart {text : List Char} (h : IsExponent text) :
    ∃ shift, ∀ rest, Ends rest → exponentPart (text ++ rest) = .ok (shift, rest) := by
  cases h with
  | none =>
    refine ⟨none, fun rest ends => exponentPart_of_head? ?_ ?_⟩
    · exact fun front => (ends _ front).2.2.1 rfl
    · exact fun front => (ends _ front).2.2.2 rfl
  | @some mark c sign digits marks signs digit all =>
    rcases signs with rfl | rfl | rfl
    · obtain ⟨shift, read⟩ := exists_exponentDigits digit all false
      have alone := read [] fun _ none => by cases none
      rw [List.append_nil] at alone
      refine ⟨shift, fun rest ends => exponentPart_plain_append ends marks ?_ ?_ alone⟩
      · rintro later ⟨⟩
        cases digit
      · rintro later ⟨⟩
        cases digit
    · obtain ⟨shift, read⟩ := exists_exponentDigits digit all false
      refine ⟨shift, fun rest ends => (read rest ends.noDigit).symm ▸ ?_⟩
      rcases marks with rfl | rfl <;> rfl
    · obtain ⟨shift, read⟩ := exists_exponentDigits digit all true
      refine ⟨shift, fun rest ends => (read rest ends.noDigit).symm ▸ ?_⟩
      rcases marks with rfl | rfl <;> rfl

/-! ### What a number goes on with -/

theorem front_exponent {text rest : List Char} (h : IsExponent text) (ends : Ends rest) :
    NoDigit (text ++ rest) ∧ (text ++ rest).head? ≠ some '.' := by
  cases h with
  | none => exact ⟨ends.noDigit, fun front => (ends _ front).2.1 rfl⟩
  | some marks =>
    rcases marks with rfl | rfl
    all_goals
      refine ⟨?_, by simp⟩
      rintro _ ⟨⟩
      rfl

theorem front_fraction {text rest : List Char} (h : IsFraction text) (next : NoDigit rest) :
    NoDigit (text ++ rest) := by
  cases h with
  | none => exact next
  | some =>
    rintro _ ⟨⟩
    rfl

/-- A number is read as one and the same number whatever ends it, or it is out of range. -/
theorem exists_number {text : List Char} (h : IsNumeral text) (negative : Bool) :
    ∃ result : Option Json, ∀ rest, Ends rest → number negative (text ++ rest) =
      result.elim (.error .numberOutOfRange) fun x => .ok (x, rest) := by
  obtain @⟨whole, fraction, exponent, isWhole, isFraction, isExponent⟩ := h
  obtain ⟨sig, surplus, readWhole⟩ := exists_wholePart isWhole
  obtain ⟨next, places, readFraction⟩ := exists_fractionPart isFraction sig
  obtain ⟨shift, readExponent⟩ := exists_exponentPart isExponent
  refine ⟨if surplus = 0 ∧ places = none ∧ shift = none then plainNumber negative next
    else do
      let rank ← scaleSignificand next (surplus - (places.getD 0 : Nat) + shift.getD 0)
      (Binary64.ofRank? negative rank).map .float, fun rest ends => ?_⟩
  obtain ⟨noDigit, noPoint⟩ := front_exponent isExponent ends
  have front := front_fraction isFraction noDigit
  rw [List.append_assoc, List.append_assoc, number, readWhole _ front, ok_bind]
  dsimp only
  rw [readFraction _ noDigit noPoint, ok_bind]
  refine (congrArg (· >>= _) (readExponent rest ends)).trans ?_
  rw [ok_bind]
  dsimp only
  split <;> rename_i same <;> rw [same] <;> rfl

theorem skipDigits_of_isDigit {c : Char} {digits : List Char} (digit : c.isDigit = true)
    (all : AllDigits digits) {rest : List Char} (h : NoDigit rest) :
    skipDigits (c :: digits ++ rest) = .ok rest := by
  have all' : AllDigits (c :: digits) := List.forall_mem_cons.mpr ⟨digit, all⟩
  rw [skipDigits, dropWhile_digits all' h]
  exact if_pos digit

theorem skipExponent_of_isExponent {text rest : List Char} (h : IsExponent text)
    (ends : Ends rest) : skipExponent (text ++ rest) = .ok rest := by
  cases h with
  | none =>
    unfold skipExponent
    split
    all_goals simp_all [Ends]
  | @some mark c sign digits marks signs digit all =>
    have skipped := skipDigits_of_isDigit digit all ends.noDigit
    rcases signs with rfl | rfl | rfl
    · have minus : c ≠ '-' := by
        rintro rfl
        cases digit
      have plus : c ≠ '+' := by
        rintro rfl
        cases digit
      rcases marks with rfl | rfl
      all_goals
        rw [← skipped]
        simp only [List.nil_append, List.cons_append]
        rw [skipExponent]
        all_goals simp_all
    · rcases marks with rfl | rfl <;> exact skipped
    · rcases marks with rfl | rfl <;> exact skipped

/-- Passes over all of a number that stands behind the digits before the point. -/
def skipFraction : List Char → Reading (List Char)
  | '.' :: rest => skipDigits rest >>= skipExponent
  | rest => skipExponent rest

theorem skipNumber_append {whole rest : List Char} (h : IsWhole whole) (next : NoDigit rest) :
    skipNumber (whole ++ rest) = skipFraction rest := by
  cases h with
  | zero =>
    have other : ¬ (rest.head?.any Char.isDigit) = true := by
      cases rest with
      | nil => simp
      | cons c rest => simp [next c rfl]
    simp only [skipNumber, List.cons_append, List.nil_append, if_neg other, ok_bind]
    rfl
  | @more c digits digit nonzero all =>
    have skipped := skipDigits_of_isDigit digit all next
    unfold skipNumber
    split
    · rename_i same
      exact absurd (List.cons.inj same).1 nonzero
    · rw [skipped, ok_bind]
      rfl

theorem skipNumber_of_isNumeral {text rest : List Char} (h : IsNumeral text) (ends : Ends rest) :
    skipNumber (text ++ rest) = .ok rest := by
  obtain @⟨whole, fraction, exponent, isWhole, isFraction, isExponent⟩ := h
  obtain ⟨noDigit, noPoint⟩ := front_exponent isExponent ends
  have skipped := skipExponent_of_isExponent isExponent ends
  rw [List.append_assoc, List.append_assoc,
    skipNumber_append isWhole (front_fraction isFraction noDigit)]
  cases isFraction with
  | none =>
    rw [List.nil_append]
    unfold skipFraction
    split
    · rename_i same
      exact absurd (congrArg List.head? same) noPoint
    · exact skipped
  | some digit all =>
    rw [List.cons_append, skipFraction, skipDigits_of_isDigit digit all noDigit, ok_bind, skipped]

end RobotProgram.Json
