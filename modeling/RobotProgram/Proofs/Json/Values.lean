import RobotProgram.Proofs.Json.Normal
import RobotProgram.Proofs.Json.Scalars

/-!
# Values are read as they were written

A value spread over lines is read back as that value, members in the order in which they stand, as
long as its floats are read back and it is not deeper than the reader goes. What is read is never
deeper than that.

## Main definitions

* `Json.Reads`: a written form that a reader takes for a value, whatever ends it.
* `Json.Taken`: the states that the members of an object lead through.
-/

namespace RobotProgram.Json

variable {α σ : Type}

/-! ## Blanks -/

theorem skipBlank_cons {c : Char} (visible : isBlank c = false) (text : List Char) :
    skipBlank (c :: text) = c :: text := by
  rw [skipBlank, List.dropWhile_cons_of_neg (by simp [visible])]

theorem skipBlank_newline (level : Nat) (text : List Char) :
    skipBlank (newline level ++ text) = skipBlank text := by
  have blanks : ∀ n, (List.replicate n ' ' ++ text).dropWhile isBlank = skipBlank text := by
    intro n
    induction n with
    | zero => rfl
    | succ n ih => exact ih
  exact blanks _

theorem skipBlank_blank (text : List Char) : skipBlank (' ' :: text) = skipBlank text := rfl

/-! ## Written forms -/

/-- The reader takes the written form for the value, after blanks and in front of what ends it. -/
structure Reads (read : List Char → Reading (α × List Char)) (written : List Char) (x : α) :
    Prop where
  starts : ∃ c later, written = c :: later ∧ isBlank c = false ∧ c ≠ ']'
  reads : ∀ {text rest}, skipBlank text = written ++ rest → Ends rest → read text = .ok (x, rest)

theorem Reads.skipBlank_append {read : List Char → Reading (α × List Char)} {written : List Char}
    {x : α} (h : Reads read written x) (rest : List Char) :
    skipBlank (written ++ rest) = written ++ rest := by
  obtain ⟨c, later, rfl, visible, -⟩ := h.starts
  exact skipBlank_cons visible _

theorem ends_cons {c : Char} (h : c.isDigit = false ∧ c ≠ '.' ∧ c ≠ 'e' ∧ c ≠ 'E')
    (rest : List Char) : Ends (c :: rest) := by
  rintro _ ⟨⟩
  exact h

/-! ## Items -/

section Items

variable {read : List Char → Reading (α × List Char)} {written : List Char} {x : α} {level : Nat}

theorem nextItem_comma (h : Reads read written x) (level : Nat) (rest : List Char) :
    nextItem false (',' :: (newline level ++ (written ++ rest))) =
      .ok (.item (written ++ rest)) := by
  obtain ⟨c, later, rfl, visible, bracket⟩ := h.starts
  unfold nextItem
  rw [skipBlank_cons (by decide)]
  split
  · rename_i front
    cases front
  · rename_i front
    exact absurd (List.cons.inj front).1 (by decide)
  · rename_i front
    obtain ⟨rfl, rfl⟩ := List.cons.inj front
    rw [if_neg Bool.false_ne_true, if_pos rfl, skipBlank_newline, List.cons_append,
      skipBlank_cons visible]
    split
    · rename_i front
      cases front
    · rename_i front
      exact absurd (List.cons.inj front).1 bracket
    · rfl

theorem nextItem_first (h : Reads read written x) (level : Nat) (rest : List Char) :
    nextItem true (newline level ++ (written ++ rest)) = .ok (.item (written ++ rest)) := by
  obtain ⟨c, later, rfl, visible, bracket⟩ := h.starts
  rw [nextItem, skipBlank_newline, List.cons_append, skipBlank_cons visible]
  split
  · rename_i same
    cases same
  · rename_i same
    exact absurd (List.cons.inj same).1 bracket
  · rename_i same
    rw [if_pos rfl, same]

theorem nextItem_close (first : Bool) (level : Nat) (rest : List Char) :
    nextItem first (newline level ++ ']' :: rest) = .ok (.done rest) := by
  rw [nextItem, skipBlank_newline, skipBlank_cons (by decide)]
  rfl

theorem ends_prettyItems (level : Nat) (items : List Json) (rest : List Char) :
    Ends (prettyItems level items ++ rest) := by
  cases items <;> exact ends_cons (by decide) _

theorem length_le_prettyItems (level : Nat) (items : List Json) :
    items.length ≤ (prettyItems level items).length := by
  induction items with
  | nil => exact Nat.zero_le _
  | cons x xs ih =>
    simp only [prettyItems, List.length_cons, List.length_append, List.cons_append]
    omega

variable {write : α → Json} {xs : List α}
  (h : ∀ x ∈ xs, Reads read (pretty (level + 1) (write x)) x) (rest : List Char)
include h

theorem items_prettyItems {left : Nat} (enough : xs.length < left) :
    items read left false (prettyItems level (xs.map write) ++ rest) = .ok (xs, rest) := by
  induction xs generalizing left with
  | nil =>
    obtain ⟨left, rfl⟩ := Nat.exists_eq_succ_of_ne_zero (Nat.ne_of_gt enough)
    rw [items, List.map_nil, prettyItems, List.append_assoc, List.singleton_append, nextItem_close]
    rfl
  | cons x xs ih =>
    obtain ⟨left, rfl⟩ := Nat.exists_eq_succ_of_ne_zero (Nat.ne_zero_of_lt enough)
    obtain ⟨head, tail⟩ := List.forall_mem_cons.mp h
    rw [List.map_cons, prettyItems, List.cons_append, List.cons_append, List.cons_append,
      List.append_assoc, List.append_assoc, items, nextItem_comma head, ok_bind]
    dsimp only
    rw [head.reads (head.skipBlank_append _) (ends_prettyItems _ _ _), ok_bind]
    dsimp only
    rw [ih tail (by simpa using enough), ok_bind]

/-- The items of a list, and its closing bracket, are read from behind the opening one. -/
theorem exists_items_array :
    ∃ inner, pretty level (.array (xs.map write)) ++ rest = '[' :: inner ∧
      items read (inner.length + 1) true inner = .ok (xs, rest) := by
  cases xs with
  | nil => exact ⟨']' :: rest, rfl, rfl⟩
  | cons x xs =>
    obtain ⟨head, tail⟩ := List.forall_mem_cons.mp h
    refine ⟨newline (level + 1) ++ (pretty (level + 1) (write x) ++
      (prettyItems level (xs.map write) ++ rest)), by simp [pretty], ?_⟩
    have enough := length_le_prettyItems level (xs.map write)
    rw [List.length_map] at enough
    rw [items, nextItem_first head, ok_bind]
    dsimp only
    rw [head.reads (head.skipBlank_append _) (ends_prettyItems _ _ _), ok_bind]
    dsimp only
    rw [items_prettyItems tail rest, ok_bind]
    simp only [newline, List.length_append, List.length_cons]
    omega

end Items

/-! ## Members -/

/-- The states that a reader of members goes through, from member to member. -/
inductive Taken (member : σ → String → List Char → Reading (σ × List Char)) (level : Nat) :
    σ → List (String × Json) → σ → Prop where
  | nil (state : σ) : Taken member level state [] state
  | cons {state next last : σ} {key : String} {value : Json} {rest : List (String × Json)}
      (head : Reads (fun text => member state key (':' :: text)) (pretty (level + 1) value) next)
      (tail : Taken member level next rest last) :
      Taken member level state ((key, value) :: rest) last

section Members

variable {member : σ → String → List Char → Reading (σ × List Char)} {level : Nat}

theorem memberKey_stringText (key : String) (rest : List Char) :
    memberKey (stringText key ++ rest) = .ok (.key key rest) := by
  rw [stringText_append, memberKey, quotedRest_escaped]
  rfl

theorem nextKey_comma (key : String) (level : Nat) (rest : List Char) :
    nextKey false (',' :: (newline level ++ (stringText key ++ rest))) = .ok (.key key rest) := by
  have visible : skipBlank (stringText key ++ rest) = stringText key ++ rest :=
    skipBlank_cons (by decide) _
  have step : ∀ text, nextKey false (',' :: text) = memberKey (skipBlank text) := fun _ => rfl
  rw [step, skipBlank_newline, visible, memberKey_stringText]

theorem nextKey_first (key : String) (level : Nat) (rest : List Char) :
    nextKey true (newline level ++ (stringText key ++ rest)) = .ok (.key key rest) := by
  have read := memberKey_stringText key rest
  rw [stringText_append] at read ⊢
  rw [nextKey, skipBlank_newline, skipBlank_cons (by decide)]
  exact read

theorem nextKey_close (first : Bool) (level : Nat) (rest : List Char) :
    nextKey first (newline level ++ '\x7d' :: rest) = .ok (.done rest) := by
  rw [nextKey, skipBlank_newline, skipBlank_cons (by decide)]
  rfl

theorem ends_prettyMembers (level : Nat) (members : List (String × Json)) (rest : List Char) :
    Ends (prettyMembers level members ++ rest) := by
  cases members <;> exact ends_cons (by decide) _

theorem length_le_prettyMembers (level : Nat) (members : List (String × Json)) :
    members.length ≤ (prettyMembers level members).length := by
  induction members with
  | nil => exact Nat.zero_le _
  | cons member rest ih =>
    simp only [prettyMembers, List.length_cons, List.length_append, List.cons_append]
    omega

theorem fields_prettyMembers {state last : σ} {members : List (String × Json)}
    (taken : Taken member level state members last) (rest : List Char) {left : Nat}
    (enough : members.length < left) :
    fields member left false state (prettyMembers level members ++ rest) = .ok (last, rest) := by
  induction taken generalizing left with
  | nil state =>
    obtain ⟨left, rfl⟩ := Nat.exists_eq_succ_of_ne_zero (Nat.ne_of_gt enough)
    rw [fields, prettyMembers, List.append_assoc, List.singleton_append, nextKey_close]
    rfl
  | @cons state next last key value members head tail ih =>
    obtain ⟨left, rfl⟩ := Nat.exists_eq_succ_of_ne_zero (Nat.ne_zero_of_lt enough)
    rw [prettyMembers]
    simp only [List.cons_append, List.append_assoc]
    rw [fields, nextKey_comma, ok_bind]
    dsimp only
    rw [head.reads, ok_bind]
    · exact ih (by simpa using enough)
    · exact (skipBlank_blank _).trans (head.skipBlank_append _)
    · exact ends_prettyMembers _ _ _

/-- The members of an object, and its closing brace, are read from behind the opening one. -/
theorem exists_fields_object {state last : σ} {members : List (String × Json)}
    (taken : Taken member level state members last) (rest : List Char) :
    ∃ inner, pretty level (.object members) ++ rest = '\x7b' :: inner ∧
      fields member (inner.length + 1) true state inner = .ok (last, rest) := by
  cases taken with
  | nil => exact ⟨'\x7d' :: rest, rfl, rfl⟩
  | @cons _ next _ key value members head tail =>
    refine ⟨newline (level + 1) ++ (stringText key ++ (':' :: ' ' :: (pretty (level + 1) value ++
      (prettyMembers level members ++ rest)))), by simp [pretty], ?_⟩
    have enough := length_le_prettyMembers level members
    rw [fields, nextKey_first, ok_bind]
    dsimp only
    rw [head.reads, ok_bind]
    · refine fields_prettyMembers tail rest ?_
      simp only [List.length_append, List.length_cons]
      omega
    · exact (skipBlank_blank _).trans (head.skipBlank_append _)
    · exact ends_prettyMembers _ _ _

end Members

/-! ## Values -/

theorem starts_of_scalar {text : List Char} {result : Json × List Char}
    (h : scalar text = .ok result) :
    ∃ c later, text = c :: later ∧ isBlank c = false ∧ c ≠ ']' ∧ c ≠ '[' ∧ c ≠ '\x7b' := by
  unfold scalar at h
  split at h
  · cases h
  · exact ⟨_, _, rfl, by decide⟩
  · exact ⟨_, _, rfl, by decide⟩
  · exact ⟨_, _, rfl, by decide⟩
  · exact ⟨_, _, rfl, by decide⟩
  · exact ⟨_, _, rfl, by decide⟩
  · rename_i c later _ _ _ _ _
    split at h
    · rename_i digit
      refine ⟨c, later, rfl, ?_, ?_, ?_, ?_⟩
      · refine Bool.eq_false_iff.mpr fun blank => ?_
        simp only [isBlank, Bool.or_eq_true, decide_eq_true_eq] at blank
        obtain ((rfl | rfl) | rfl) | rfl := blank <;> cases digit
      all_goals
        rintro rfl
        cases digit
    · cases h

theorem Reads.of_scalar {written : List Char} {json : Json}
    (read : ∀ rest, Ends rest → scalar (written ++ rest) = .ok (json, rest)) (depth : Nat) :
    Reads (value depth) written json := by
  have alone := read [] fun _ none => by cases none
  rw [List.append_nil] at alone
  obtain ⟨c, later, rfl, visible, bracket, list, object⟩ := starts_of_scalar alone
  refine ⟨⟨c, later, rfl, visible, bracket⟩, fun {text rest} same ends => ?_⟩
  unfold value
  rw [same, List.cons_append]
  split
  · rename_i open'
    exact absurd (List.cons.inj open').1 list
  · rename_i open'
    exact absurd (List.cons.inj open').1 object
  · exact read rest ends

/-- What a member of an object adds to those in front of it. -/
def addMember (depth : Nat) (members : List (String × Json)) (name : String) (text : List Char) :
    Reading (List (String × Json) × List Char) := do
  let rest ← colon text
  let (x, rest) ← value depth rest
  .ok (members ++ [(name, x)], rest)

theorem Reads.addMember {depth : Nat} {written : List Char} {x : Json}
    (h : Reads (value depth) written x) (members : List (String × Json)) (name : String) :
    Reads (fun text => Json.addMember depth members name (':' :: text)) written
      (members ++ [(name, x)]) := by
  refine ⟨h.starts, fun {text rest} same ends => ?_⟩
  have step : Json.addMember depth members name (':' :: text) =
      (value depth text >>= fun read => .ok (members ++ [(name, read.1)], read.2)) := rfl
  rw [step, h.reads same ends]
  rfl

theorem value_of_bracket {depth : Nat} {text inner : List Char}
    (h : skipBlank text = '[' :: inner) :
    value (depth + 1) text =
      (items (value depth) (inner.length + 1) true inner >>= fun read =>
        .ok (Json.array read.1, read.2)) := by
  unfold value
  rw [h]
  rfl

theorem value_of_brace {depth : Nat} {text inner : List Char}
    (h : skipBlank text = '\x7b' :: inner) :
    value (depth + 1) text =
      (fields (addMember depth) (inner.length + 1) true [] inner >>= fun read =>
        .ok (Json.object read.1, read.2)) := by
  unfold value
  rw [h]
  rfl

theorem Reads.array {depth level : Nat} {items : List Json}
    (h : ∀ x ∈ items, Reads (value depth) (pretty (level + 1) x) x) :
    Reads (value (depth + 1)) (pretty level (.array items)) (.array items) := by
  refine ⟨?_, fun {text rest} same _ => ?_⟩
  · cases items <;> exact ⟨_, _, rfl, by decide⟩
  · have h : ∀ x ∈ items, Reads (value depth) (pretty (level + 1) (id x)) x := h
    obtain ⟨inner, front, read⟩ := exists_items_array h rest
    rw [List.map_id] at front
    rw [value_of_bracket (same.trans front), read]
    rfl

theorem Reads.object {depth level : Nat} {members : List (String × Json)}
    (taken : Taken (Json.addMember depth) level [] members members) :
    Reads (value (depth + 1)) (pretty level (.object members)) (.object members) := by
  refine ⟨?_, fun {text rest} same _ => ?_⟩
  · cases members <;> exact ⟨_, _, rfl, by decide⟩
  · obtain ⟨inner, front, read⟩ := exists_fields_object taken rest
    rw [value_of_brace (same.trans front), read]
    rfl

mutual

/-- A value is read back if it is not too deep and its floats are read back. -/
theorem reads_value : ∀ {depth level : Nat} (json : Json), json.depth ≤ depth →
    (∀ x ∈ json.floats, x.ReadsBack) → Reads (value depth) (pretty level json) json
  | _, _, .null, _, _ => .of_scalar (fun _ _ => rfl) _
  | _, _, .bool true, _, _ => .of_scalar (fun _ _ => rfl) _
  | _, _, .bool false, _, _ => .of_scalar (fun _ _ => rfl) _
  | _, _, .integer i, _, _ => .of_scalar (fun _ => scalar_intText i) _
  | _, _, .float x, _, back => .of_scalar (fun _ => scalar_floatText (back x (by simp [floats]))) _
  | _, _, .string s, _, _ => .of_scalar (fun rest _ => scalar_stringText s rest) _
  | _ + 1, _, .array items, deep, back =>
    .array (reads_items items (Nat.le_of_succ_le_succ deep) back)
  | _ + 1, _, .object members, deep, back =>
    .object (taken_members members [] (Nat.le_of_succ_le_succ deep) back)

theorem reads_items : ∀ {depth level : Nat} (items : List Json), depthItems items ≤ depth →
    (∀ x ∈ floatsItems items, x.ReadsBack) → ∀ x ∈ items, Reads (value depth) (pretty level x) x
  | _, _, [], _, _ => fun _ none => by cases none
  | _, _, x :: xs, deep, back => by
    rw [depthItems, Nat.max_le] at deep
    rw [floatsItems, List.forall_mem_append] at back
    exact List.forall_mem_cons.mpr
      ⟨reads_value x deep.1 back.1, reads_items xs deep.2 back.2⟩

theorem taken_members : ∀ {depth level : Nat} (members before : List (String × Json)),
    depthMembers members ≤ depth → (∀ x ∈ floatsMembers members, x.ReadsBack) →
      Taken (addMember depth) level before members (before ++ members)
  | _, _, [], before, _, _ => by
    rw [List.append_nil]
    exact .nil before
  | _, _, (key, x) :: rest, before, deep, back => by
    rw [depthMembers, Nat.max_le] at deep
    rw [floatsMembers, List.forall_mem_append] at back
    rw [List.append_cons]
    exact .cons ((reads_value x deep.1 back.1).addMember before key)
      (taken_members rest _ deep.2 back.2)

end

/-! ## Depth -/

theorem depth_of_plainNumber {negative : Bool} {sig : Nat} {json : Json}
    (h : plainNumber negative sig = some json) : json.depth = 0 := by
  unfold plainNumber at h
  split at h
  · split at h
    · cases h
      rfl
    · split at h
      · cases h
        rfl
      · obtain ⟨x, -, rfl⟩ := Option.map_eq_some_iff.mp h
        rfl
  · obtain ⟨i, -, rfl⟩ := Option.map_eq_some_iff.mp h
    rfl

theorem depth_of_number {negative : Bool} {text rest : List Char} {json : Json}
    (h : number negative text = .ok (json, rest)) : json.depth = 0 := by
  simp only [number, bind_eq_ok_iff, Prod.exists] at h
  obtain ⟨sig, surplus, _, -, sig', places, _, -, shift, _, -, h⟩ := h
  split at h
  · rename_i n result
    cases h
    split at result
    · exact depth_of_plainNumber result
    · obtain ⟨rank, -, result⟩ := Option.bind_eq_some_iff.mp result
      obtain ⟨x, -, rfl⟩ := Option.map_eq_some_iff.mp result
      rfl
  · cases h

theorem depth_of_scalar {text rest : List Char} {json : Json}
    (h : scalar text = .ok (json, rest)) : json.depth = 0 := by
  unfold scalar at h
  split at h
  · cases h
  · obtain ⟨_, -, h⟩ := bind_eq_ok_iff.mp h
    cases h
    rfl
  · obtain ⟨_, -, h⟩ := bind_eq_ok_iff.mp h
    cases h
    rfl
  · obtain ⟨_, -, h⟩ := bind_eq_ok_iff.mp h
    cases h
    rfl
  · exact depth_of_number h
  · obtain ⟨_, -, h⟩ := bind_eq_ok_iff.mp h
    cases h
    rfl
  · split at h
    · exact depth_of_number h
    · cases h

/-- What a reader of items promises of each item, holds of all that are read. -/
theorem items_induction {read : List Char → Reading (α × List Char)} {P : α → Prop}
    (item : ∀ {text x rest}, read text = .ok (x, rest) → P x) {left : Nat} {first : Bool}
    {text rest : List Char} {xs : List α} (h : items read left first text = .ok (xs, rest)) :
    ∀ x ∈ xs, P x := by
  induction left generalizing first text xs with
  | zero => cases h
  | succ left ih =>
    obtain ⟨next, -, h⟩ := bind_eq_ok_iff.mp h
    cases next with
    | done rest =>
      cases h
      exact fun _ none => by cases none
    | item text =>
      obtain ⟨⟨x, mid⟩, head, h⟩ := bind_eq_ok_iff.mp h
      obtain ⟨⟨xs, rest⟩, tail, h⟩ := bind_eq_ok_iff.mp h
      cases h
      exact List.forall_mem_cons.mpr ⟨item head, ih tail⟩

/-- What each member keeps, all members keep. -/
theorem fields_induction {member : σ → String → List Char → Reading (σ × List Char)}
    {P : σ → Prop}
    (step : ∀ {state name text next rest}, P state → member state name text = .ok (next, rest) →
      P next)
    {left : Nat} {first : Bool} {state last : σ} {text rest : List Char} (start : P state)
    (h : fields member left first state text = .ok (last, rest)) : P last := by
  induction left generalizing first state text with
  | zero => cases h
  | succ left ih =>
    obtain ⟨next, -, h⟩ := bind_eq_ok_iff.mp h
    cases next with
    | done rest =>
      cases h
      exact start
    | key name text =>
      obtain ⟨⟨state', mid⟩, head, h⟩ := bind_eq_ok_iff.mp h
      exact ih (step start head) h

/-- No value that is read is deeper than the reader goes. -/
theorem depth_le_of_value {depth : Nat} {text rest : List Char} {json : Json}
    (h : value depth text = .ok (json, rest)) : json.depth ≤ depth := by
  induction depth generalizing text rest json with
  | zero =>
    unfold value at h
    split at h
    · cases h
    · cases h
    · exact Nat.le_of_eq (depth_of_scalar h)
  | succ depth ih =>
    unfold value at h
    split at h
    · obtain ⟨⟨xs, rest⟩, read, h⟩ := bind_eq_ok_iff.mp h
      cases h
      exact Nat.succ_le_succ (depthItems_le_iff.mpr (items_induction (fun read => ih read) read))
    · obtain ⟨⟨members, rest⟩, read, h⟩ := bind_eq_ok_iff.mp h
      cases h
      refine Nat.succ_le_succ (depthMembers_le_iff.mpr ?_)
      refine fields_induction (P := fun members => ∀ member ∈ members, member.2.depth ≤ depth)
        (fun {state name text next rest} small read => ?_) (fun _ none => by cases none) read
      obtain ⟨text, -, read⟩ := bind_eq_ok_iff.mp read
      obtain ⟨⟨x, rest⟩, read, done⟩ := bind_eq_ok_iff.mp read
      cases done
      rw [List.forall_mem_append, List.forall_mem_singleton]
      exact ⟨small, ih read⟩
    · rw [depth_of_scalar h]
      exact Nat.zero_le _

end RobotProgram.Json
