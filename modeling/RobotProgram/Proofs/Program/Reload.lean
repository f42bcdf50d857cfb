import RobotProgram.Proofs.Program.Distinct

/-!
# Saving and loading programs

Loading adds the events of the records in turn, so that of events that duplicate one another the
first is kept. The events of a program are distinct, but a wildcard may stand behind another event
of its kind, where a replacement has put that event: such a wildcard is lost when the program is
saved and loaded. All else comes back as it was.

## Main definitions

* `sieve`: the elements of a list that nothing before them clashes with.
* `Program.firsts`: the events that are kept when a list of events is added.
* `Program.unshadowed`: the events but for wildcards behind another event of their kind.
* `Program.WildcardsLead`: no wildcard stands behind another event of its kind.
* `Program.RoundTrips`: loading what is saved gives the same records and depths.
-/

namespace RobotProgram

/-! ## Sieves -/

section Sieve

variable {α β : Type} {clash other : α → α → Bool}

/-- The elements that neither the ones `before` nor those that stand in front of them clash with. -/
def sieve (clash : α → α → Bool) : List α → List α → List α
  | _, [] => []
  | before, x :: rest =>
    if before.any (clash · x) then sieve clash (before ++ [x]) rest
    else x :: sieve clash (before ++ [x]) rest

theorem sieve_sublist (clash : α → α → Bool) (before xs : List α) :
    (sieve clash before xs).Sublist xs := by
  fun_induction sieve clash before xs with
  | case1 => exact .refl _
  | case2 _ x _ _ ih => exact ih.cons x
  | case3 _ x _ _ ih => exact ih.cons_cons x

/-- A sieve looks at each element with all that stand in front of it, dropped ones among them. -/
theorem sieve_eq_filter (clash : α → α → Bool) (before xs : List α) :
    sieve clash before xs =
      (xs.zipIdx.filter fun x => !(before ++ xs.take x.2).any (clash · x.1)).map Prod.fst := by
  induction xs generalizing before with
  | nil => rfl
  | cons x xs ih =>
    have tail : ((x :: xs).zipIdx.tail.filter fun y =>
          !(before ++ (x :: xs).take y.2).any (clash · y.1)).map Prod.fst =
        sieve clash (before ++ [x]) xs := by
      rw [ih, List.zipIdx_cons, List.tail_cons, List.zipIdx_succ, List.filter_map, List.map_map]
      simp [Function.comp_def]
    rw [sieve, ← tail, List.zipIdx_cons, List.filter_cons, List.tail_cons]
    simp only [List.take_zero, List.append_nil]
    cases before.any (clash · x) <;> simp

theorem sieve_map (f : β → α) (before xs : List β) :
    sieve clash (before.map f) (xs.map f) =
      (sieve (fun a x => clash (f a) (f x)) before xs).map f := by
  induction xs generalizing before with
  | nil => rfl
  | cons x xs ih =>
    have rest := ih (before ++ [x])
    rw [List.map_append, List.map_singleton] at rest
    rw [List.map_cons, sieve, sieve, List.any_map, rest]
    simp only [Function.comp_def]
    split <;> rfl

theorem sieve_congr {before xs : List α} (cross : ∀ a ∈ before, ∀ x ∈ xs, clash a x = other a x)
    (inside : xs.Pairwise fun a x => clash a x = other a x) :
    sieve clash before xs = sieve other before xs := by
  induction xs generalizing before with
  | nil => rfl
  | cons x xs ih =>
    have head : before.any (clash · x) = before.any (other · x) := by
      rw [Bool.eq_iff_iff, List.any_eq_true, List.any_eq_true]
      refine exists_congr fun a => and_congr_right fun ha => ?_
      rw [cross a ha x List.mem_cons_self]
    have rest : sieve clash (before ++ [x]) xs = sieve other (before ++ [x]) xs := by
      refine ih (fun a ha y hy => ?_) (List.Pairwise.of_cons inside)
      rcases List.mem_append.mp ha with ha | ha
      · exact cross a ha y (List.mem_cons_of_mem _ hy)
      · rw [List.mem_singleton.mp ha]
        exact List.rel_of_pairwise_cons inside hy
    rw [sieve, sieve, head, rest]

/-- A sieve keeps everything just if nothing clashes with anything behind it. -/
theorem sieve_eq_self_iff {before xs : List α} :
    sieve clash before xs = xs ↔
      (∀ a ∈ before, ∀ x ∈ xs, clash a x = false) ∧ xs.Pairwise (clash · · = false) := by
  induction xs generalizing before with
  | nil => simp [sieve]
  | cons x xs ih =>
    rw [sieve]
    split
    · rename_i found
      obtain ⟨a, ha, hax⟩ := List.any_eq_true.mp found
      have short := (sieve_sublist clash (before ++ [x]) xs).length_le
      constructor
      · intro same
        have := congrArg List.length same
        rw [List.length_cons] at this
        omega
      · rintro ⟨cross, -⟩
        simp [cross a ha x List.mem_cons_self] at hax
    · rename_i free
      simp only [List.any_eq_true, not_exists, not_and, Bool.not_eq_true] at free
      rw [List.cons.injEq, ih, List.pairwise_cons]
      constructor
      · rintro ⟨-, cross, inside⟩
        refine ⟨fun a ha => List.forall_mem_cons.mpr ⟨free a ha, fun y hy => ?_⟩, ?_, inside⟩
        · exact cross a (List.mem_append_left _ ha) y hy
        · exact cross x (List.mem_append_right _ List.mem_cons_self)
      · rintro ⟨cross, head, inside⟩
        refine ⟨rfl, fun a ha y hy => ?_, inside⟩
        rcases List.mem_append.mp ha with ha | ha
        · exact cross a ha y (List.mem_cons_of_mem _ hy)
        · exact List.mem_singleton.mp ha ▸ head y hy

/-- What a sieve lets through, it lets through again. -/
theorem pairwise_sieve (clash : α → α → Bool) (before xs : List α) :
    (∀ a ∈ before, ∀ x ∈ sieve clash before xs, clash a x = false) ∧
      (sieve clash before xs).Pairwise (clash · · = false) := by
  fun_induction sieve clash before xs with
  | case1 => simp
  | case2 before x rest _ ih =>
    exact ⟨fun a ha => ih.1 a (List.mem_append_left _ ha), ih.2⟩
  | case3 before x rest free ih =>
    simp only [List.any_eq_true, not_exists, not_and, Bool.not_eq_true] at free
    refine ⟨fun a ha => List.forall_mem_cons.mpr ⟨free a ha, ?_⟩, List.pairwise_cons.mpr ⟨?_, ih.2⟩⟩
    · exact ih.1 a (List.mem_append_left _ ha)
    · exact ih.1 x (List.mem_append_right _ (List.mem_singleton_self x))

end Sieve

/-! ## Events -/

namespace Event

/-- Whether the first event keeps the second from being added. -/
def blocks (a b : Event) : Bool := a.conflicts b.kind b.parameters

/-- Whether the second event is a wildcard, and of the kind of the first. -/
def shadows (a b : Event) : Bool := a.kind == b.kind && b.parameters.isNone

/-- What a blocked event would block is blocked already. -/
theorem blocks_trans {a b c : Event} (hab : a.blocks b) (hbc : b.blocks c) : a.blocks c := by
  simp only [blocks, conflicts, Bool.and_eq_true, Bool.or_eq_true, beq_iff_eq] at hab hbc ⊢
  refine ⟨hab.1.trans hbc.1, ?_⟩
  rcases hbc.2 with wild | same
  · exact .inl wild
  rcases hab.2 with wild | same'
  · rw [Option.isNone_iff_eq_none.mp wild, sameParameters_none_left] at same
    exact .inl same
  · exact .inr (sameParameters_trans same' same)

/-- The event that the record of an event is read as. -/
def reread (event : Event) : Event := { event with routine := event.routine.reread }

theorem ofRecord_toRecord (event : Event) : ofRecord event.toRecord = .ok event.reread := by
  simp only [ofRecord, toRecord, EventKind.ofGui?_gui, Routine.ofRecords_save]
  rfl

@[simp] theorem toRecord_reread (event : Event) : event.reread.toRecord = event.toRecord := by
  simp [toRecord, reread]

end Event

namespace Program

/-! ## Adding events -/

/-- Of events that are added in turn, those that are kept. -/
def firsts (before events : List Event) : List Event := sieve Event.blocks before events

theorem duplicate?_isSome {p : Program} {event : Event} :
    (p.duplicate? event.kind event.parameters none).isSome =
      (p.entries.map Prod.snd).any (·.blocks event) := by
  simp [duplicate?, List.isSome_find?, Event.blocks, Function.comp_def]

/--
The events that are there may stand for all that were added, since what a dropped event would block
is blocked by the one that it duplicates.
-/
theorem entries_addEvents_of_blocks {p : Program} (wf : p.events.WellFormed)
    {before : List Event} (events : List Event)
    (same : ∀ e, before.any (·.blocks e) = (p.entries.map Prod.snd).any (·.blocks e)) :
    (p.addEvents events).entries =
      p.entries ++ Roster.numbered p.events.next (firsts before events) := by
  induction events generalizing p before with
  | nil => simp [addEvents, firsts, sieve, Roster.numbered]
  | cons event rest ih =>
    rw [addEvents, firsts, sieve, same event, ← duplicate?_isSome]
    cases hd : p.duplicate? event.kind event.parameters none with
    | some h =>
      rw [addEvent_of_duplicate event hd, Option.isSome_some, if_pos rfl]
      have found : (p.entries.map Prod.snd).any (·.blocks event) = true := by
        rw [← duplicate?_isSome, hd, Option.isSome_some]
      obtain ⟨x, hx, blocks⟩ := List.any_eq_true.mp found
      -- the dropped event blocks nothing that `x` does not block
      refine ih wf fun e => ?_
      rw [List.any_append, same e, List.any_cons, List.any_nil, Bool.or_false]
      cases hb : event.blocks e with
      | false => rw [Bool.or_false]
      | true =>
        rw [Bool.or_true, eq_comm, List.any_eq_true]
        exact ⟨x, hx, Event.blocks_trans blocks hb⟩
    | none =>
      rw [(addEvent_of_new event hd).2, Option.isSome_none, if_neg Bool.false_ne_true]
      have grown : (p.events.register event).entries =
          p.entries ++ [(p.events.nextHandle, event)] := Roster.entries_register wf event
      have same' : ∀ e, (before ++ [event]).any (·.blocks e) =
          ((p.events.register event).entries.map Prod.snd).any (·.blocks e) := by
        intro e
        rw [grown, List.map_append, List.any_append, List.any_append, same e]
        rfl
      have rest := ih (p := { p with
        events := p.events.register event, selected := some p.events.nextHandle })
        (wf.register event) same'
      rw [rest, entries, grown, List.append_assoc]
      rfl

theorem entries_addEvents {p : Program} (wf : p.events.WellFormed) (events : List Event) :
    (p.addEvents events).entries =
      p.entries ++ Roster.numbered p.events.next (firsts (p.entries.map Prod.snd) events) :=
  entries_addEvents_of_blocks wf events fun _ => rfl

/-! ## Loading -/

section Load

variable {p : Program} {records : List EventRecord} {events : List Event}

theorem load_of_mapM (unlocked : p.locked = false)
    (h : records.mapM Event.ofRecord = .ok events) (selectFirst : Bool) :
    (p.load records selectFirst).answer = .ok () ∧
      (p.load records selectFirst).state = p.reloaded events selectFirst := by
  unfold load
  rw [h]
  dsimp only
  rw [if_neg (by simp [unlocked])]
  exact ⟨rfl, rfl⟩

theorem entries_reloaded (wf : p.events.WellFormed) (events : List Event) (selectFirst : Bool) :
    (p.reloaded events selectFirst).entries =
      Roster.numbered p.events.next (firsts [] events) :=
  entries_addEvents (p := { p with events := p.events.clear }) wf.clear events

theorem save_reloaded (wf : p.events.WellFormed) (events : List Event) (selectFirst : Bool) :
    (p.reloaded events selectFirst).save = (firsts [] events).map Event.toRecord := by
  rw [save, entries_reloaded wf]
  conv_rhs => rw [← Roster.map_snd_numbered p.events.next (firsts [] events), List.map_map]
  rfl

theorem mapM_save (p : Program) :
    p.save.mapM Event.ofRecord = .ok (p.entries.map (·.2.reread)) :=
  mapM_map_eq_ok fun entry _ => Event.ofRecord_toRecord entry.2

end Load

/-! ## Round trips -/

/-- The depths of the commands of all events. -/
def indents (p : Program) : List (List Nat) := p.entries.map (·.2.routine.indents)

/-- The events without those wildcards that stand behind another event of their kind. -/
def unshadowed (p : Program) : List Event := sieve Event.shadows [] (p.entries.map Prod.snd)

/-- No event without parameters stands behind another event of its kind. -/
def WildcardsLead (p : Program) : Prop :=
  p.entries.Pairwise fun a b => b.2.parameters = none → a.2.kind ≠ b.2.kind

/-- What is saved can be loaded, and loading it gives the same records and depths. -/
def RoundTrips (p : Program) (selectFirst : Bool) : Prop :=
  (empty.load p.save selectFirst).answer = .ok () ∧
    (empty.load p.save selectFirst).state.save = p.save ∧
    (empty.load p.save selectFirst).state.indents = p.indents

section RoundTrip

variable {p : Program}

theorem unshadowed_eq_self_iff :
    p.unshadowed = p.entries.map Prod.snd ↔ p.WildcardsLead := by
  rw [unshadowed, sieve_eq_self_iff, List.pairwise_map]
  simp only [List.not_mem_nil, false_implies, implies_true, true_and]
  refine List.Pairwise.iff fun {a b} => ?_
  simp only [Event.shadows, Bool.and_eq_false_iff, beq_eq_false_iff_ne]
  cases b.2.parameters <;> simp

/-- Distinct events only block one another as wildcards. -/
theorem firsts_reread (distinct : p.Distinct) (wf : p.events.WellFormed) :
    firsts [] (p.entries.map (·.2.reread)) = p.unshadowed.map Event.reread := by
  have apart : (p.entries.map Prod.snd).Pairwise fun a b => a.blocks b = a.shadows b := by
    refine List.pairwise_map.mpr ((distinct.pairwise wf).imp fun {a b} different => ?_)
    by_cases hk : a.2.kind = b.2.kind
    · have same : sameParameters a.2.parameters b.2.parameters = false :=
        eq_false_of_ne_true fun same => different ⟨hk, same⟩
      simp [Event.blocks, Event.conflicts, Event.shadows, same]
    · simp [Event.blocks, Event.conflicts, Event.shadows, beq_false_of_ne hk]
  calc firsts [] (p.entries.map (·.2.reread))
      = firsts ([].map Event.reread) ((p.entries.map Prod.snd).map Event.reread) := by
        rw [List.map_map]
        rfl
    _ = (sieve Event.blocks [] (p.entries.map Prod.snd)).map Event.reread := sieve_map ..
    _ = p.unshadowed.map Event.reread := by
        rw [sieve_congr (by simp) apart, unshadowed]

/-- Loading what was saved gives all events but the wildcards behind another of their kind. -/
theorem load_save (wf : p.WellFormed) (distinct : p.Distinct) (selectFirst : Bool) :
    (empty.load p.save selectFirst).answer = .ok () ∧
      (empty.load p.save selectFirst).state.save = p.unshadowed.map Event.toRecord ∧
      (empty.load p.save selectFirst).state.indents = p.unshadowed.map (·.routine.indents) := by
  obtain ⟨answer, state⟩ := load_of_mapM (p := empty) rfl (mapM_save p) selectFirst
  have back {τ : Type} (f : Event → τ) :
      (empty.load p.save selectFirst).state.entries.map (f ·.2) =
        p.unshadowed.map fun event => f event.reread := by
    rw [state, entries_reloaded wellFormed_empty.events, firsts_reread distinct wf.events]
    have snd := Roster.map_snd_numbered empty.events.next (p.unshadowed.map Event.reread)
    exact (List.map_map ..).symm.trans ((congrArg _ snd).trans (List.map_map ..))
  refine ⟨answer, ?_, ?_⟩
  · exact (back Event.toRecord).trans (List.map_congr_left fun event _ => event.toRecord_reread)
  · refine (back (·.routine.indents)).trans (List.map_congr_left fun event he => ?_)
    obtain ⟨entry, hentry, rfl⟩ := List.mem_map.mp ((sieve_sublist _ _ _).subset he)
    exact Routine.indents_reread (wf.routines entry hentry)

theorem roundTrips_iff (wf : p.WellFormed) (distinct : p.Distinct) (selectFirst : Bool) :
    p.RoundTrips selectFirst ↔ p.WildcardsLead := by
  obtain ⟨answer, save, indents⟩ := load_save wf distinct selectFirst
  rw [RoundTrips, ← unshadowed_eq_self_iff, save, indents]
  constructor
  -- a sieve that keeps as many events as there are keeps all of them
  · rintro ⟨-, same, -⟩
    have length : p.unshadowed.length = p.entries.length := by
      simpa [Program.save] using congrArg List.length same
    exact (sieve_sublist _ _ _).eq_of_length (length.trans (List.length_map ..).symm)
  · intro same
    rw [same]
    refine ⟨answer, ?_, ?_⟩ <;> exact List.map_map ..

end RoundTrip

/-! ## Where wildcards lead -/

/-- Whether an operation replaces an event. -/
def Edit.replaces : Edit → Bool
  | .replace .. => true
  | _ => false

namespace WildcardsLead

variable {p q : Program}

/-- It only depends on the kinds and parameters of the events. -/
theorem of_map (lead : p.WildcardsLead) {g : Handle Event × Event → Handle Event × Event}
    (entries : q.entries = p.entries.map g)
    (same : ∀ a, (g a).2.kind = a.2.kind ∧ (g a).2.parameters = a.2.parameters) :
    q.WildcardsLead := by
  rw [WildcardsLead, entries, List.pairwise_map]
  refine lead.imp fun {a b} h => ?_
  rwa [(same a).1, (same b).1, (same b).2]

theorem addEvent (lead : p.WildcardsLead) (wf : p.events.WellFormed) (event : Event) :
    (p.addEvent event).state.WildcardsLead := by
  cases hd : p.duplicate? event.kind event.parameters none with
  | some h => rwa [addEvent_of_duplicate event hd]
  | none =>
    rw [(addEvent_of_new event hd).2, WildcardsLead, entries, Roster.entries_register wf]
    refine List.pairwise_append.mpr ⟨lead, List.pairwise_singleton .., fun a ha b hb wild => ?_⟩
    rw [List.mem_singleton.mp hb] at wild ⊢
    have free := duplicate?_eq_none_iff.mp hd a ha (by simp)
    simpa [Event.conflicts, show event.parameters = none from wild] using free

theorem addEvents (lead : p.WildcardsLead) (wf : p.events.WellFormed) (events : List Event) :
    (p.addEvents events).WildcardsLead := by
  induction events generalizing p with
  | nil => exact lead
  | cons event rest ih =>
    exact ih (lead.addEvent wf event) (wellFormed_events_addEvent wf event)

theorem effect (lead : p.WildcardsLead) (wf : p.events.WellFormed) {edit : Edit} {reply : Reply}
    (keeps : edit.replaces = false) (effect : Effect p edit reply q) : q.WildcardsLead := by
  have removed (h : Handle Event) : (p.removeEvent h).WildcardsLead := by
    rw [WildcardsLead, entries, removeEvent, Roster.entries_remove]
    exact lead.filter _
  cases effect with
  | add kind parameters records routine _ _ new =>
    have added := lead.addEvent wf (.new kind parameters routine)
    rwa [(addEvent_of_new (.new kind parameters routine) new).2] at added
  | delete h => exact removed h
  | deleteSelected h => exact removed h
  | replace => cases keeps
  | select h => exact lead
  | selectAt index h => exact lead
  | clearSelection => exact lead
  | load records selectFirst events =>
    exact addEvents (p := { p with events := p.events.clear }) .nil wf.clear events
  | lock on => exact lead.of_map (Roster.entries_mapObjects _ _) fun a => ⟨rfl, rfl⟩
  | inEvent h event _ edit reply routine =>
    refine lead.of_map (Roster.entries_modify _ h _) fun a => ?_
    split <;> exact ⟨rfl, rfl⟩

theorem run (lead : p.WildcardsLead) (wf : p.WellFormed) {edits : List Edit}
    (keeps : ∀ edit ∈ edits, edit.replaces = false) : (p.run edits).WildcardsLead := by
  induction edits generalizing p with
  | nil => exact lead
  | cons edit edits ih =>
    obtain ⟨head, tail⟩ := List.forall_mem_cons.mp keeps
    have lead' : (p.apply edit).state.WildcardsLead := by
      rcases p.apply_spec wf.events edit with same | ⟨reply, -, effect⟩
      · rwa [same]
      · exact lead.effect wf.events head effect
    exact ih lead' (wf.apply edit) tail

end WildcardsLead

/-- Only replacing events can keep a program from coming back as it was. -/
theorem roundTrips_run_of_keeps {edits : List Edit} (keeps : ∀ edit ∈ edits, edit.replaces = false)
    (selectFirst : Bool) : (empty.run edits).RoundTrips selectFirst := by
  have lead : (empty.run edits).WildcardsLead :=
    WildcardsLead.run (p := empty) .nil wellFormed_empty keeps
  have distinct := (distinct_of_entries_eq_nil (p := empty) rfl).run wellFormed_empty edits
  exact (roundTrips_iff (wellFormed_empty.run edits) distinct selectFirst).mpr lead

/--
What any program comes back as when it is saved and loaded. It comes back as it was just if none of
its wildcards stands behind another event of its kind.
-/
theorem load_save_run_empty (edits : List Edit) (selectFirst : Bool) :
    (empty.load (empty.run edits).save selectFirst).answer = .ok () ∧
      (empty.load (empty.run edits).save selectFirst).state.save =
        (empty.run edits).unshadowed.map Event.toRecord ∧
      (empty.load (empty.run edits).save selectFirst).state.indents =
        (empty.run edits).unshadowed.map (·.routine.indents) ∧
      ((empty.run edits).RoundTrips selectFirst ↔ (empty.run edits).WildcardsLead) := by
  have wf := wellFormed_empty.run edits
  have distinct := (distinct_of_entries_eq_nil (p := empty) rfl).run wellFormed_empty edits
  obtain ⟨answer, save, indents⟩ := load_save wf distinct selectFirst
  exact ⟨answer, save, indents, roundTrips_iff wf distinct selectFirst⟩

/-- Puts an event with parameters in front of the wildcard of its kind. -/
def overtaking : List Edit :=
  [.add .start none [], .add .keyPress none [],
    .replace ⟨1⟩ .keyPress (some (.ofMembers [("checkKey", .string "A")]))]

/-- The wildcard that was overtaken is lost. -/
theorem not_roundTrips_overtaking : ¬ (empty.run overtaking).RoundTrips true := by
  rintro ⟨-, same, -⟩
  have two : (empty.run overtaking).save.length = 2 := by decide
  have one : (empty.load (empty.run overtaking).save true).state.save.length = 1 := by decide
  rw [same, two] at one
  cases one

end Program

end RobotProgram
