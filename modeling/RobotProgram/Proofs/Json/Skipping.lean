import RobotProgram.Proofs.Json.Tokens

/-!
# Values that nobody asked for

A value that is skipped may be any text of the grammar: it is passed over up to its end, however
deep its containers are, whether its strings spell anything, and whether its numbers are in range.

## Main definitions

* `Json.Passes`: how many steps it takes to get past a value, whatever is open around it.

## Main results

* `Json.IsValue.skip`: every value of the grammar is skipped.
-/

namespace RobotProgram.Json

/-! ## Steps -/

/-- Goes on with what is still open. -/
def resume (left : Nat) : Reading (List Frame × List Char) → Reading (List Char)
  | .ok ([], rest) => .ok rest
  | .ok (frame :: frames, rest) => skipWithin left (frame :: frames) rest
  | .error fault => .error fault

theorem skipWithin_succ (left : Nat) (frames : List Frame) (text : List Char) :
    skipWithin (left + 1) frames text = resume left (skipStep frames text) := by
  rw [skipWithin]
  rcases skipStep frames text with fault | ⟨_ | ⟨frame, frames⟩, rest⟩ <;> rfl

/-- In so many steps the reader gets past a value, to what is open around it. -/
def Passes (value : List Char) (steps : Nat) : Prop :=
  ∀ {left : Nat} {frames : List Frame} {text rest : List Char}, skipBlank text = value ++ rest →
    Ends rest → skipWithin (left + steps) frames text = resume left (afterValue frames rest)

theorem passes_scalar {c : Char} {later : List Char} (list : c ≠ '[') (object : c ≠ '\x7b')
    (h : ∀ rest, Ends rest → skipScalar (c :: later ++ rest) = .ok rest) :
    Passes (c :: later) 1 := by
  intro left frames text rest same ends
  rw [skipWithin_succ, skipStep, same, List.cons_append]
  split
  · rename_i front
    exact absurd (List.cons.inj front).1 list
  · rename_i front
    exact absurd (List.cons.inj front).1 object
  · rw [← List.cons_append, h rest ends, ok_bind]

/-! ## Containers -/

theorem closeFrames_close {frame : Frame} {gap : List Char} (blank : Blank gap)
    (frames : List Frame) (rest : List Char) :
    closeFrames (frame :: frames) (gap ++ frame.closing :: rest) = closeFrames frames rest := by
  cases frame <;> rw [closeFrames, blank.skipBlank_append, skipBlank_cons (by decide)] <;> rfl

theorem closeFrames_comma {frame : Frame} {gap : List Char} (blank : Blank gap)
    (frames : List Frame) (rest : List Char) :
    closeFrames (frame :: frames) (gap ++ ',' :: rest) = .ok (frame :: frames, rest) := by
  rw [closeFrames, blank.skipBlank_append, skipBlank_cons (by decide)]
  rfl

/-- A part of a container: behind its key, if it has one, stand a value and blanks. -/
structure Part (frame : Frame) (part value after : List Char) : Prop where
  blank : Blank after
  front : ∀ rest, ∃ c later, skipBlank (part ++ rest) = c :: later ∧ c ≠ frame.closing
  key : ∀ {text rest : List Char} (frames : List Frame), skipBlank text = skipBlank (part ++ rest) →
    ∃ next, skipKey (frame :: frames) text = .ok next ∧ skipBlank next = value ++ (after ++ rest)

/-- A part whose value the reader gets past in no more steps than there are characters. -/
def Passable (frame : Frame) (part : List Char) : Prop :=
  ∃ value after steps, Part frame part value after ∧ Passes value steps ∧
    steps + after.length ≤ part.length

section Container

variable {frame : Frame} {parts : List (List Char)} (h : ∀ part ∈ parts, Passable frame part)
  {gap : List Char} (blank : Blank gap)
include h blank

theorem ends_parts (rest : List Char) :
    Ends (enclosed false gap frame.closing parts ++ rest) :=
  ends_enclosed blank (by cases frame <;> simp [Frame.closing]) parts rest

/-- From behind a part the reader gets past all later ones and the closing bracket. -/
theorem exists_resume_enclosed :
    ∃ steps ≤ (enclosed false gap frame.closing parts).length, ∀ left frames rest,
      resume (left + steps)
          (afterValue (frame :: frames) (enclosed false gap frame.closing parts ++ rest)) =
        resume left (afterValue frames rest) := by
  induction parts generalizing gap with
  | nil =>
    refine ⟨0, Nat.zero_le _, fun left frames rest => ?_⟩
    rw [enclosed, List.append_assoc, List.singleton_append, afterValue, closeFrames_close blank]
    rfl
  | cons part parts ih =>
    obtain ⟨⟨value, after, steps, isPart, passes, few⟩, tail⟩ := List.forall_mem_cons.mp h
    obtain ⟨more, bound, read⟩ := ih tail isPart.blank
    refine ⟨more + steps, ?_, fun left frames rest => ?_⟩
    · rw [← append_enclosed, List.length_append] at bound
      simp only [enclosed, Bool.false_eq_true, if_false, List.length_append]
      omega
    · obtain ⟨next, key, front⟩ := @isPart.key _ (enclosed false [] frame.closing parts ++ rest)
        frames rfl
      have ends := ends_parts tail isPart.blank rest
      rw [← append_enclosed, List.append_assoc] at ends
      rw [enclosed_false_append, afterValue, closeFrames_comma blank, ok_bind]
      dsimp only
      rw [key, ok_bind, resume, ← Nat.add_assoc, passes front ends, ← List.append_assoc,
        append_enclosed, read]

/-- A container is passed over in no more steps than it has characters. -/
theorem exists_passes_container {opening : Char}
    (opens : ∀ frames inner text, skipBlank text = opening :: inner →
      skipStep frames text = afterOpening frame frames inner) :
    ∃ steps ≤ (opening :: enclosed true gap frame.closing parts).length,
      Passes (opening :: enclosed true gap frame.closing parts) steps := by
  cases parts with
  | nil =>
    refine ⟨1, Nat.succ_le_succ (Nat.zero_le _), ?_⟩
    intro left frames text rest same ends
    rw [List.cons_append, enclosed, List.append_assoc, List.singleton_append] at same
    rw [skipWithin_succ, opens _ _ _ same, afterOpening, blank.skipBlank_append,
      skipBlank_cons (by cases frame <;> decide)]
    simp
  | cons part parts =>
    obtain ⟨⟨value, after, steps, isPart, passes, few⟩, tail⟩ := List.forall_mem_cons.mp h
    obtain ⟨more, bound, read⟩ := exists_resume_enclosed tail isPart.blank
    refine ⟨more + steps + 1, ?_, ?_⟩
    · rw [← append_enclosed, List.length_append] at bound
      simp only [enclosed, if_true, List.length_cons, List.length_append, List.length_nil]
      omega
    · intro left frames text rest same ends
      rw [List.cons_append, enclosed_true_append] at same
      obtain ⟨c, later, front, other⟩ :=
        isPart.front (enclosed false [] frame.closing parts ++ rest)
      have still : skipBlank (c :: later) =
          skipBlank (part ++ (enclosed false [] frame.closing parts ++ rest)) :=
        front ▸ skipBlank_skipBlank _
      obtain ⟨next, key, behind⟩ := isPart.key frames still
      have ends' := ends_parts tail isPart.blank rest
      rw [← append_enclosed, List.append_assoc] at ends'
      rw [← Nat.add_assoc, skipWithin_succ, opens _ _ _ same, afterOpening, front]
      dsimp only
      rw [if_neg other, key, ok_bind, resume, ← Nat.add_assoc, passes behind ends',
        ← List.append_assoc, append_enclosed, read]

end Container

/-! ## Values -/

theorem passable_item {i : Item} (value : IsValue i.value) {steps : Nat}
    (passes : Passes i.value steps) (few : steps ≤ i.value.length) : Passable .list i.text := by
  refine ⟨i.value, i.after, steps, ⟨i.blankAfter, fun rest => ?_, ?_⟩, passes, ?_⟩
  · obtain ⟨c, later, same, opening⟩ := value.exists_cons
    rw [Item.skipBlank_text value, same]
    exact ⟨c, _, rfl, (ne_of_isOpening opening).2.1⟩
  · exact fun frames same => ⟨_, rfl, same.trans (Item.skipBlank_text value _)⟩
  · simp only [Item.text, List.length_append]
    omega

theorem passable_member {m : Member} (body : IsBody m.key) (value : IsValue m.item.value)
    {steps : Nat} (passes : Passes m.item.value steps) (few : steps ≤ m.item.value.length) :
    Passable .object m.text := by
  refine ⟨m.item.value, m.item.after, steps, ⟨m.item.blankAfter, fun rest => ?_, ?_⟩, passes, ?_⟩
  · exact ⟨'"', _, m.skipBlank_text rest, by decide⟩
  · intro text rest frames same
    refine ⟨m.item.text ++ rest, ?_, ?_⟩
    · have enough (later : List Char) : m.key.length < (m.key ++ '"' :: later).length + 1 := by
        rw [List.length_append]
        omega
      rw [skipKey, same, m.skipBlank_text]
      change skipString _ _ >>= colon = _
      rw [skipString_of_isBody body (enough _), ok_bind, colon, m.blankMiddle.skipBlank_append,
        skipBlank_cons (by decide)]
      rfl
    · exact Item.skipBlank_text value rest
  · simp only [Member.text, Item.text, List.length_append, List.length_cons]
    omega

theorem skipScalar_of_isDigit {c : Char} (digit : c.isDigit = true) (text : List Char) :
    skipScalar (c :: text) = skipNumber (c :: text) := by
  unfold skipScalar
  split <;> simp_all

theorem exists_passes {value : List Char} (h : IsValue value) :
    ∃ steps ≤ value.length, Passes value steps := by
  induction h with
  | null => exact ⟨1, by decide, passes_scalar (by decide) (by decide) fun _ _ => rfl⟩
  | yes => exact ⟨1, by decide, passes_scalar (by decide) (by decide) fun _ _ => rfl⟩
  | no => exact ⟨1, by decide, passes_scalar (by decide) (by decide) fun _ _ => rfl⟩
  | numeral h =>
    obtain ⟨c, later, rfl, digit⟩ := h.exists_cons
    refine ⟨1, Nat.succ_le_succ (Nat.zero_le _), passes_scalar (ne_of_isDigit digit rfl)
      (ne_of_isDigit digit rfl) fun rest ends => ?_⟩
    exact (skipScalar_of_isDigit digit _).trans (skipNumber_of_isNumeral h ends)
  | negative h =>
    refine ⟨1, Nat.succ_le_succ (Nat.zero_le _), passes_scalar (by decide) (by decide)
      fun rest ends => ?_⟩
    exact skipNumber_of_isNumeral h ends
  | @string body h =>
    refine ⟨1, Nat.succ_le_succ (Nat.zero_le _), passes_scalar (by decide) (by decide)
      fun rest _ => ?_⟩
    rw [List.cons_append, List.append_assoc, List.singleton_append, skipScalar]
    refine skipString_of_isBody h ?_ rest
    rw [List.length_append]
    omega
  | list blank values ih =>
    refine @exists_passes_container .list _ ?_ _ blank '[' ?_
    · refine List.forall_mem_map.mpr fun i mem => ?_
      obtain ⟨steps, few, passes⟩ := ih i mem
      exact passable_item (values i mem) passes few
    · intro frames inner text same
      rw [skipStep, same]
      rfl
  | object blank keys values ih =>
    refine @exists_passes_container .object _ ?_ _ blank '\x7b' ?_
    · refine List.forall_mem_map.mpr fun m mem => ?_
      obtain ⟨steps, few, passes⟩ := ih m mem
      exact passable_member (keys m mem) (values m mem) passes few
    · intro frames inner text same
      rw [skipStep, same]
      rfl

/-- Every value of the grammar is skipped, up to its end. -/
theorem IsValue.skip {value : List Char} (h : IsValue value) {text rest : List Char}
    (same : skipBlank text = value ++ rest) (ends : Ends rest) : Json.skip text = .ok rest := by
  obtain ⟨steps, few, passes⟩ := exists_passes h
  have bound : value.length ≤ text.length := by
    have shorter : (skipBlank text).length ≤ text.length := (List.dropWhile_sublist _).length_le
    rw [same, List.length_append] at shorter
    omega
  obtain ⟨left, fuel⟩ : ∃ left, text.length + 1 = left + steps :=
    ⟨text.length + 1 - steps, by omega⟩
  rw [Json.skip, fuel, passes same ends]
  rfl

end RobotProgram.Json
