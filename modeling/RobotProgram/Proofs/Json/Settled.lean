import RobotProgram.Proofs.Json.Skipping

/-!
# What is read of a value is settled by its text

A reader that meets a text of the grammar takes all of it or fails, and what it takes it for does
not depend on what follows, on the blanks in front, or on how members are spaced and spelled.
So a list is read item by item and an object member by member, however they are laid out.

## Main definitions

* `Json.Settled`: a reader takes all of a text or fails.
* `Json.Leads`: the states that members of given names and values lead through.

## Main results

* `Json.items_of_forall₂`, `Json.forall₂_of_items`: a list is read as what its items are read as.
* `Json.fields_of_leads`, `Json.leads_of_fields`: an object is read as its members lead.
* `Json.IsValue.settled`: what values are read as is settled.
-/

namespace RobotProgram.Json

variable {α σ : Type}

/-- If the reader takes anything for a value from the text, it takes all of the text for it. -/
structure Settled (read : List Char → Reading (α × List Char)) (written : List Char) : Prop where
  takes : ∀ {text rest r : List Char} {x : α}, skipBlank text = written ++ rest → Ends rest →
    read text = .ok (x, r) → r = rest ∧ Reads read written x

section Settled

variable {read : List Char → Reading (α × List Char)} {written : List Char} {x : α}

theorem Reads.settled (h : Reads read written x) : Settled read written := by
  refine ⟨fun same ends done => ?_⟩
  rw [h.reads same ends] at done
  cases done
  exact ⟨rfl, h⟩

theorem Reads.unique {y : α} (h : Reads read written x) (h' : Reads read written y) : x = y := by
  have done := h.reads (h.skipBlank_append []) ends_nil
  rw [h'.reads (h.skipBlank_append []) ends_nil] at done
  cases done
  rfl

/-- A text of the grammar starts as a written form has to. -/
theorem IsValue.reads (value : IsValue written)
    (h : ∀ {text rest}, skipBlank text = written ++ rest → Ends rest → read text = .ok (x, rest)) :
    Reads read written x := by
  obtain ⟨c, later, same, opening⟩ := value.exists_cons
  have other := ne_of_isOpening opening
  exact ⟨⟨c, later, same, other.1, other.2.1⟩, h⟩

end Settled

/-! ## Lists -/

theorem nextItem_true {text later : List Char} {c : Char} (front : skipBlank text = c :: later)
    (bracket : c ≠ ']') : nextItem true text = .ok (.item (c :: later)) := by
  unfold nextItem
  rw [front]
  split
  · contradiction
  · rename_i same
    exact absurd (List.cons.inj same).1 bracket
  · rename_i same
    rw [if_pos rfl, same]

theorem nextItem_false {text rest later : List Char} {c : Char}
    (comma : skipBlank text = ',' :: rest) (front : skipBlank rest = c :: later)
    (bracket : c ≠ ']') : nextItem false text = .ok (.item (c :: later)) := by
  unfold nextItem
  rw [comma]
  split
  · contradiction
  · rename_i same
    exact absurd (List.cons.inj same).1 (by decide)
  · rename_i same
    obtain ⟨rfl, rfl⟩ := List.cons.inj same
    rw [if_neg Bool.false_ne_true, if_pos rfl, front]
    split
    · contradiction
    · rename_i same
      exact absurd (List.cons.inj same).1 bracket
    · rfl

section Items

variable {gap : List Char} (blank : Blank gap) (first : Bool)
include blank

theorem nextItem_nil (rest : List Char) :
    nextItem first (enclosed first gap ']' [] ++ rest) = .ok (.done rest) := by
  rw [enclosed, List.append_assoc, List.singleton_append, nextItem, blank.skipBlank_append,
    skipBlank_cons (by decide)]
  rfl

theorem nextItem_cons {i : Item} (value : IsValue i.value) (items : List Item)
    (rest : List Char) :
    nextItem first (enclosed first gap ']' ((i :: items).map Item.text) ++ rest) =
      .ok (.item (i.value ++ (enclosed false i.after ']' (items.map Item.text) ++ rest))) := by
  obtain ⟨c, later, same, opening⟩ := value.exists_cons
  obtain ⟨visible, bracket, -, -⟩ := ne_of_isOpening opening
  have front (tail : List Char) : skipBlank (i.before ++ (i.value ++ tail)) =
      c :: (later ++ tail) := by
    rw [i.blankBefore.skipBlank_append, same, List.cons_append, skipBlank_cons visible]
  rw [List.map_cons]
  cases first with
  | true =>
    rw [enclosed_true_append, i.text_append, nextItem_true (front _) bracket, same]
    rfl
  | false =>
    have comma (tail : List Char) : skipBlank (gap ++ ',' :: tail) = ',' :: tail := by
      rw [blank.skipBlank_append, skipBlank_cons (by decide)]
    rw [enclosed_false_append, i.text_append, nextItem_false (comma _) (front _) bracket, same]
    rfl

/-- What a list is read as when each of its items is read. -/
theorem items_of_forall₂ {read : List Char → Reading (α × List Char)} {items : List Item}
    {xs : List α} (h : List.Forall₂ (fun (i : Item) x => Reads read i.value x) items xs)
    (values : ∀ i ∈ items, IsValue i.value) {left : Nat} (enough : items.length < left)
    (rest : List Char) :
    Json.items read left first (enclosed first gap ']' (items.map Item.text) ++ rest) =
      .ok (xs, rest) := by
  induction h generalizing first gap left with
  | nil =>
    obtain ⟨left, rfl⟩ := Nat.exists_eq_succ_of_ne_zero (Nat.ne_of_gt enough)
    rw [Json.items, List.map_nil, nextItem_nil blank]
    rfl
  | @cons i x items xs head tail ih =>
    obtain ⟨left, rfl⟩ := Nat.exists_eq_succ_of_ne_zero (Nat.ne_zero_of_lt enough)
    obtain ⟨value, values⟩ := List.forall_mem_cons.mp values
    rw [Json.items, nextItem_cons blank first value, ok_bind]
    dsimp only
    rw [head.reads (head.skipBlank_append _) (ends_enclosed i.blankAfter (.inl rfl) _ _), ok_bind]
    dsimp only
    rw [ih i.blankAfter false values (by simpa using enough), ok_bind]

/-- There is always enough of a text left for all of its items. -/
theorem items_enclosed {read : List Char → Reading (α × List Char)} {items : List Item}
    {xs : List α} (h : List.Forall₂ (fun (i : Item) x => Reads read i.value x) items xs)
    (values : ∀ i ∈ items, IsValue i.value) (rest : List Char) :
    Json.items read ((enclosed true gap ']' (items.map Item.text) ++ rest).length + 1) true
      (enclosed true gap ']' (items.map Item.text) ++ rest) = .ok (xs, rest) := by
  refine items_of_forall₂ blank true h values ?_ rest
  have few := length_le_enclosed gap ']' (items.map Item.text)
  rw [List.length_map] at few
  rw [List.length_append]
  omega

/-- When a list is read, each of its items is. -/
theorem forall₂_of_items {read : List Char → Reading (α × List Char)} {items : List Item}
    (values : ∀ i ∈ items, IsValue i.value) (settled : ∀ i ∈ items, Settled read i.value)
    {left : Nat} {rest r : List Char} {xs : List α}
    (h : Json.items read left first (enclosed first gap ']' (items.map Item.text) ++ rest) =
      .ok (xs, r)) :
    r = rest ∧ List.Forall₂ (fun (i : Item) x => Reads read i.value x) items xs := by
  induction left generalizing items first gap xs with
  | zero => cases h
  | succ left ih =>
    cases items with
    | nil =>
      rw [Json.items, List.map_nil, nextItem_nil blank] at h
      cases h
      exact ⟨rfl, .nil⟩
    | cons i items =>
      obtain ⟨value, values⟩ := List.forall_mem_cons.mp values
      obtain ⟨settle, settled⟩ := List.forall_mem_cons.mp settled
      rw [Json.items, nextItem_cons blank first value, ok_bind] at h
      obtain ⟨⟨x, mid⟩, read, h⟩ := bind_eq_ok_iff.mp h
      obtain ⟨⟨xs, r⟩, later, done⟩ := bind_eq_ok_iff.mp h
      cases done
      obtain ⟨rfl, head⟩ := settle.takes (value.skipBlank_append _)
        (ends_enclosed i.blankAfter (.inl rfl) _ _) read
      obtain ⟨same, tail⟩ := ih i.blankAfter false values settled later
      exact ⟨same, .cons head tail⟩

end Items

/-! ## Objects -/

/-- The states that a reader of members goes through, from member to member. -/
inductive Leads (member : σ → String → List Char → Reading (σ × List Char)) :
    σ → List (String × List Char) → σ → Prop where
  | nil (state : σ) : Leads member state [] state
  | cons {state next last : σ} {name : String} {value : List Char}
      {pairs : List (String × List Char)}
      (head : Reads (fun text => member state name (':' :: text)) value next)
      (tail : Leads member next pairs last) : Leads member state ((name, value) :: pairs) last

/-- The reader passes over the colon, and over the blanks in front of it. -/
def Colons (member : σ → String → List Char → Reading (σ × List Char)) : Prop :=
  ∀ state name {blank} text, Blank blank →
    member state name (blank ++ ':' :: text) = member state name (':' :: text)

theorem colon_append {blank : List Char} (h : Blank blank) (text : List Char) :
    colon (blank ++ ':' :: text) = colon (':' :: text) := by
  rw [colon, colon, h.skipBlank_append]

section Members

variable {gap : List Char} (blank : Blank gap) (first : Bool)
include blank

theorem nextKey_nil (rest : List Char) :
    nextKey first (enclosed first gap '\x7d' [] ++ rest) = .ok (.done rest) := by
  rw [enclosed, List.append_assoc, List.singleton_append, nextKey, blank.skipBlank_append,
    skipBlank_cons (by decide)]
  rfl

/-- What is read of a member: its key, and from the colon on the rest. -/
theorem nextKey_cons (m : Member) (members : List Member) (rest : List Char) :
    nextKey first (enclosed first gap '\x7d' ((m :: members).map Member.text) ++ rest) =
      (quotedRest (m.key ++ '"' :: (m.middle ++ ':' :: (m.item.before ++ (m.item.value ++
          (enclosed false m.item.after '\x7d' (members.map Member.text) ++ rest))))) >>=
        fun read => .ok (.key read.1 read.2)) := by
  rw [List.map_cons, ← m.item.text_append]
  cases first with
  | true =>
    rw [enclosed_true_append, nextKey, m.skipBlank_text]
    rfl
  | false =>
    have step (tail : List Char) :
        nextKey false (gap ++ ',' :: tail) = memberKey (skipBlank tail) := by
      rw [nextKey, blank.skipBlank_append, skipBlank_cons (by decide)]
      rfl
    rw [enclosed_false_append, step, m.skipBlank_text]
    rfl

variable {member : σ → String → List Char → Reading (σ × List Char)} (colons : Colons member)
include colons

/-- An object is read as its members lead. -/
theorem fields_of_leads {state last : σ} {pairs : List (String × List Char)}
    (leads : Leads member state pairs last) {members : List Member}
    (named : List.Forall₂ Member.Named members pairs) {left : Nat} (enough : members.length < left)
    (rest : List Char) :
    fields member left first state
        (enclosed first gap '\x7d' (members.map Member.text) ++ rest) = .ok (last, rest) := by
  induction leads generalizing first gap members left with
  | nil state =>
    cases named
    obtain ⟨left, rfl⟩ := Nat.exists_eq_succ_of_ne_zero (Nat.ne_of_gt enough)
    rw [fields, List.map_nil, nextKey_nil blank]
    rfl
  | @cons state next last name value pairs head tail ih =>
    cases named with
    | @cons m _ members _ spelled named =>
      obtain ⟨spelled, rfl⟩ := spelled
      obtain ⟨left, rfl⟩ := Nat.exists_eq_succ_of_ne_zero (Nat.ne_zero_of_lt enough)
      have front := m.item.blankBefore.skipBlank_append
        (m.item.value ++ (enclosed false m.item.after '\x7d' (members.map Member.text) ++ rest))
      rw [fields, nextKey_cons blank, quotedRest_of_spells spelled, ok_bind, ok_bind]
      dsimp only
      rw [colons state name _ m.blankMiddle,
        head.reads (front.trans (head.skipBlank_append _))
          (ends_enclosed m.item.blankAfter (.inr rfl) _ _), ok_bind]
      exact ih m.item.blankAfter false named (by simpa using enough)

theorem fields_enclosed {state last : σ} {pairs : List (String × List Char)}
    (leads : Leads member state pairs last) {members : List Member}
    (named : List.Forall₂ Member.Named members pairs) (rest : List Char) :
    fields member ((enclosed true gap '\x7d' (members.map Member.text) ++ rest).length + 1) true
      state (enclosed true gap '\x7d' (members.map Member.text) ++ rest) = .ok (last, rest) := by
  refine fields_of_leads blank true colons leads named ?_ rest
  have few := length_le_enclosed gap '\x7d' (members.map Member.text)
  rw [List.length_map] at few
  rw [List.length_append]
  omega

/-- When an object is read, its members have names and lead to what was read. -/
theorem leads_of_fields {members : List Member} (keys : ∀ m ∈ members, IsBody m.key)
    (values : ∀ m ∈ members, IsValue m.item.value)
    (settled : ∀ m ∈ members, ∀ state name,
      Settled (fun text => member state name (':' :: text)) m.item.value)
    {left : Nat} {state last : σ} {rest r : List Char}
    (h : fields member left first state
      (enclosed first gap '\x7d' (members.map Member.text) ++ rest) = .ok (last, r)) :
    r = rest ∧
      ∃ pairs, List.Forall₂ Member.Named members pairs ∧ Leads member state pairs last := by
  induction left generalizing members first gap state with
  | zero => cases h
  | succ left ih =>
    cases members with
    | nil =>
      rw [fields, List.map_nil, nextKey_nil blank] at h
      cases h
      exact ⟨rfl, [], .nil, .nil last⟩
    | cons m members =>
      obtain ⟨key, keys⟩ := List.forall_mem_cons.mp keys
      obtain ⟨value, values⟩ := List.forall_mem_cons.mp values
      obtain ⟨settle, settled⟩ := List.forall_mem_cons.mp settled
      rw [fields, nextKey_cons blank] at h
      obtain ⟨_, named, h⟩ := bind_eq_ok_iff.mp h
      obtain ⟨⟨name, mid⟩, quoted, done⟩ := bind_eq_ok_iff.mp named
      cases done
      obtain ⟨spelled, rfl⟩ := spells_of_quotedRest key quoted
      obtain ⟨⟨next, mid⟩, read, h⟩ := bind_eq_ok_iff.mp h
      dsimp only at read
      rw [colons state name _ m.blankMiddle] at read
      have front := m.item.blankBefore.skipBlank_append
        (m.item.value ++ (enclosed false m.item.after '\x7d' (members.map Member.text) ++ rest))
      obtain ⟨rfl, head⟩ := (settle state name).takes (front.trans (value.skipBlank_append _))
        (ends_enclosed m.item.blankAfter (.inr rfl) _ _) read
      obtain ⟨same, pairs, named, tail⟩ := ih m.item.blankAfter false keys values settled h
      exact ⟨same, (name, m.item.value) :: pairs, .cons ⟨spelled, rfl⟩ named, .cons head tail⟩

end Members

/-! ## Values -/

section Scalars

variable {depth : Nat} {written : List Char}

theorem value_of_scalar {c : Char} {later text rest : List Char} (list : c ≠ '[')
    (object : c ≠ '\x7b') (same : skipBlank text = c :: later ++ rest) :
    value depth text = scalar (c :: later ++ rest) := by
  unfold value
  rw [same, List.cons_append]
  split
  · rename_i front
    exact absurd (List.cons.inj front).1 list
  · rename_i front
    exact absurd (List.cons.inj front).1 object
  · rfl

/-- A scalar that is never read is settled. -/
theorem settled_of_unread {c : Char} {later : List Char} (list : c ≠ '[') (object : c ≠ '\x7b')
    (unread : ∀ rest, Ends rest → ∀ x r, scalar (c :: later ++ rest) ≠ .ok (x, r)) :
    Settled (value depth) (c :: later) := by
  refine ⟨fun {text rest r x} same ends read => ?_⟩
  rw [value_of_scalar list object same] at read
  exact absurd read (unread rest ends x r)

theorem settled_numeral (h : IsNumeral written) : Settled (value depth) written := by
  obtain ⟨c, later, rfl, digit⟩ := h.exists_cons
  have same (rest : List Char) : scalar (c :: later ++ rest) = number false (c :: later ++ rest) :=
    scalar_of_isDigit digit _
  obtain ⟨_ | x, read⟩ := exists_number h false
  · refine settled_of_unread (ne_of_isDigit digit rfl) (ne_of_isDigit digit rfl)
      fun rest ends x r done => ?_
    rw [same, read rest ends] at done
    cases done
  · exact (Reads.of_scalar (fun rest ends => (same rest).trans (read rest ends)) depth).settled

theorem settled_negative (h : IsNumeral written) : Settled (value depth) ('-' :: written) := by
  have same (rest : List Char) : scalar ('-' :: written ++ rest) = number true (written ++ rest) :=
    rfl
  obtain ⟨_ | x, read⟩ := exists_number h true
  · refine settled_of_unread (by decide) (by decide) fun rest ends x r done => ?_
    rw [same, read rest ends] at done
    cases done
  · exact (Reads.of_scalar (fun rest ends => (same rest).trans (read rest ends)) depth).settled

theorem settled_string {body : List Char} (h : IsBody body) :
    Settled (value depth) ('"' :: (body ++ ['"'])) := by
  have step (rest : List Char) : scalar ('"' :: (body ++ ['"']) ++ rest) =
      (quotedRest (body ++ '"' :: rest) >>= fun read => .ok (.string read.1, read.2)) := by
    simp [scalar]
  by_cases spelled : ∃ s : String, Spells body s.toList
  · obtain ⟨s, spelled⟩ := spelled
    have read (rest : List Char) :
        scalar ('"' :: (body ++ ['"']) ++ rest) = .ok (.string s, rest) := by
      rw [step, quotedRest_of_spells spelled, ok_bind]
    exact (Reads.of_scalar (fun rest _ => read rest) depth).settled
  · refine settled_of_unread (by decide) (by decide) fun rest ends x r read => ?_
    rw [step] at read
    obtain ⟨⟨s, _⟩, quoted, -⟩ := bind_eq_ok_iff.mp read
    exact spelled ⟨s, (spells_of_quotedRest h quoted).1⟩

end Scalars

theorem colons_addMember (depth : Nat) : Colons (addMember depth) := by
  intro state name blank text h
  rw [addMember, addMember, colon_append h]

theorem settled_addMember {depth : Nat} {written : List Char} (h : Settled (value depth) written)
    (members : List (String × Json)) (name : String) :
    Settled (fun text => addMember depth members name (':' :: text)) written := by
  refine ⟨fun {text rest r x} same ends whole => ?_⟩
  change (value depth text >>= fun read => .ok (members ++ [(name, read.1)], read.2)) = _ at whole
  obtain ⟨⟨x, r⟩, read, done⟩ := bind_eq_ok_iff.mp whole
  cases done
  obtain ⟨rfl, reads⟩ := h.takes same ends read
  exact ⟨rfl, reads.addMember members name⟩

section Containers

variable {depth : Nat} {gap : List Char} (blank : Blank gap)
include blank

theorem settled_list {items : List Item} (values : ∀ i ∈ items, IsValue i.value)
    (settled : ∀ i ∈ items, ∀ depth, Settled (value depth) i.value) :
    Settled (value depth) (listText gap items) := by
  refine ⟨fun {text rest r x} same _ whole => ?_⟩
  cases depth with
  | zero =>
    unfold value at whole
    rw [same] at whole
    cases whole
  | succ depth =>
    rw [value_of_bracket same] at whole
    obtain ⟨⟨xs, r⟩, read, done⟩ := bind_eq_ok_iff.mp whole
    cases done
    obtain ⟨rfl, each⟩ :=
      forall₂_of_items blank true values (fun i mem => settled i mem depth) read
    refine ⟨rfl, (IsValue.list blank values).reads fun {text rest} same _ => ?_⟩
    rw [value_of_bracket same]
    exact congrArg (· >>= _) (items_enclosed blank each values rest)

theorem settled_object {members : List Member} (keys : ∀ m ∈ members, IsBody m.key)
    (values : ∀ m ∈ members, IsValue m.item.value)
    (settled : ∀ m ∈ members, ∀ depth, Settled (value depth) m.item.value) :
    Settled (value depth) (objectText gap members) := by
  refine ⟨fun {text rest r x} same _ whole => ?_⟩
  cases depth with
  | zero =>
    unfold value at whole
    rw [same] at whole
    cases whole
  | succ depth =>
    rw [value_of_brace same] at whole
    obtain ⟨⟨entries, r⟩, read, done⟩ := bind_eq_ok_iff.mp whole
    cases done
    have colons := colons_addMember depth
    obtain ⟨rfl, pairs, named, leads⟩ := leads_of_fields blank true colons keys values
      (fun m mem state name => settled_addMember (settled m mem depth) state name) read
    refine ⟨rfl, (IsValue.object blank keys values).reads fun {text rest} same _ => ?_⟩
    rw [value_of_brace same]
    exact congrArg (· >>= _) (fields_enclosed blank colons leads named rest)

end Containers

/-- What a text of the grammar is read as is settled, as far as it is read at all. -/
theorem IsValue.settled {written : List Char} (h : IsValue written) (depth : Nat) :
    Settled (value depth) written := by
  induction h generalizing depth with
  | null => exact (Reads.of_scalar (fun _ _ => rfl) depth).settled
  | yes => exact (Reads.of_scalar (fun _ _ => rfl) depth).settled
  | no => exact (Reads.of_scalar (fun _ _ => rfl) depth).settled
  | numeral h => exact settled_numeral h
  | negative h => exact settled_negative h
  | string h => exact settled_string h
  | list blank values ih => exact settled_list blank values ih
  | object blank keys values ih => exact settled_object blank keys values ih

end RobotProgram.Json
