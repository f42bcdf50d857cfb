import RobotProgram.Proofs.Program.Reload

/-!
# What loading keeps

Of the records that are loaded, those are kept that no earlier record duplicates, whether that one
was kept itself or not. A kept record is saved as it was read, the events get consecutive handles,
and the first of them is selected, or none.

## Main definitions

* `EventRecord.Known`: a record that names known kinds only.
* `EventRecord.bars`: whether a record keeps a later one from being loaded.
* `EventRecord.unbarred`: the records that no earlier one bars.
-/

namespace RobotProgram

/-! ## Records -/

namespace EventRecord

/-- The kinds of the event and of its commands are known. -/
def Known (record : EventRecord) : Prop :=
  (EventKind.ofGui? record.typeGui).isSome ∧
    ∀ command ∈ record.commandList, (CommandKind.ofGui? command.typeGui).isSome

instance (record : EventRecord) : Decidable record.Known := inferInstanceAs (Decidable (_ ∧ _))

/-- The later record has no parameters or equal ones, for an event of the same kind. -/
def bars (earlier later : EventRecord) : Bool :=
  earlier.typeGui == later.typeGui &&
    (later.parameters.isNone || sameParameters earlier.parameters later.parameters)

/-- The records that none of those in front of them bars. -/
def unbarred (records : List EventRecord) : List EventRecord :=
  (records.zipIdx.filter fun x => !(records.take x.2).any (·.bars x.1)).map Prod.fst

theorem sieve_bars (records : List EventRecord) : sieve bars [] records = unbarred records :=
  sieve_eq_filter bars [] records

end EventRecord

theorem Command.exists_ofRecord {record : CommandRecord}
    (known : (CommandKind.ofGui? record.typeGui).isSome) : ∃ c, ofRecord record = .ok c := by
  obtain ⟨kind, hkind⟩ := Option.isSome_iff_exists.mp known
  exact ⟨⟨kind, record.parameters, record.typeLogic, 0⟩, by rw [ofRecord, hkind]⟩

namespace Event

theorem exists_ofRecord {record : EventRecord} (known : record.Known) :
    ∃ event, ofRecord record = .ok event := by
  obtain ⟨kind, hkind⟩ := Option.isSome_iff_exists.mp known.1
  obtain ⟨commands, hcommands⟩ := exists_mapM fun c hc => Command.exists_ofRecord (known.2 c hc)
  refine ⟨⟨kind, record.parameters, record.typeLogic, Routine.ofCommands commands⟩, ?_⟩
  rw [ofRecord, hkind, Routine.ofRecords_eq, hcommands]
  rfl

/-- Events block one another as their records do, since kinds have different names. -/
theorem blocks_eq_bars (a b : Event) : a.blocks b = a.toRecord.bars b.toRecord := by
  have names : (a.kind == b.kind) = (a.kind.gui == b.kind.gui) := by
    rw [Bool.eq_iff_iff, beq_iff_eq, beq_iff_eq]
    refine ⟨congrArg EventKind.gui, fun same => ?_⟩
    have found := EventKind.ofGui?_gui a.kind
    rw [same, EventKind.ofGui?_gui] at found
    exact (Option.some.inj found).symm
  rw [blocks, conflicts, names]
  rfl

end Event

/-! ## Loading -/

namespace Program

variable {p : Program}

/-- The events that are kept are those of the records that are not barred. -/
theorem firsts_eq_unbarred {records : List EventRecord} {events : List Event}
    (read : records.mapM Event.ofRecord = .ok events) :
    (firsts [] events).map Event.toRecord = EventRecord.unbarred records := by
  have written : events.map Event.toRecord = records :=
    map_of_mapM (fun h => (ofRecord_spec h).2.2) read
  have clash : Event.blocks = fun a b => a.toRecord.bars b.toRecord :=
    funext₂ Event.blocks_eq_bars
  calc (firsts [] events).map Event.toRecord
      = (sieve (fun a b => a.toRecord.bars b.toRecord) [] events).map Event.toRecord := by
        rw [firsts, clash]
    _ = sieve EventRecord.bars [] (events.map Event.toRecord) := (sieve_map Event.toRecord _ _).symm
    _ = EventRecord.unbarred records := by rw [written, EventRecord.sieve_bars]

theorem load_of_known (wf : p.WellFormed) (unlocked : p.locked = false)
    {records : List EventRecord} (known : ∀ record ∈ records, record.Known) (selectFirst : Bool) :
    (p.load records selectFirst).answer = .ok () ∧
      (p.load records selectFirst).state.save = EventRecord.unbarred records ∧
      (p.load records selectFirst).state.events.order =
        (List.range' p.events.next (EventRecord.unbarred records).length).map Handle.mk ∧
      (p.load records selectFirst).state.selected =
        if selectFirst then (p.load records selectFirst).state.events.order.head? else none := by
  obtain ⟨events, read⟩ := exists_mapM fun record hr => Event.exists_ofRecord (known record hr)
  obtain ⟨answer, state⟩ := load_of_mapM unlocked read selectFirst
  have kept := firsts_eq_unbarred read
  have entries := entries_reloaded wf.events events selectFirst
  have wf' := (wf.reloaded selectFirst (forall_of_mapM read fun h => (ofRecord_spec h).1)).events
  have length : (firsts [] events).length = (EventRecord.unbarred records).length := by
    rw [← kept, List.length_map]
  rw [state]
  refine ⟨answer, ?_, ?_, ?_⟩
  · rw [save_reloaded wf.events, kept]
  · rw [← wf'.map_fst_entries, ← length, ← Roster.map_fst_numbered]
    exact congrArg _ entries
  · cases selectFirst with
    | false => rfl
    | true => exact List.head?_eq_getElem?.symm

/--
Loading replaces whatever was there by the records that no earlier one bars, as they are, under the
handles that come next, and selects the first or none.
-/
theorem load_run_empty (edits : List Edit) (unlocked : (empty.run edits).locked = false)
    (records : List EventRecord) (known : ∀ record ∈ records, record.Known) (selectFirst : Bool) :
    ((empty.run edits).load records selectFirst).answer = .ok () ∧
      ((empty.run edits).load records selectFirst).state.save = EventRecord.unbarred records ∧
      ((empty.run edits).load records selectFirst).state.events.order =
        (List.range' (empty.run edits).events.next (EventRecord.unbarred records).length).map
          Handle.mk ∧
      ((empty.run edits).load records selectFirst).state.selected =
        if selectFirst then ((empty.run edits).load records selectFirst).state.events.order.head?
        else none :=
  load_of_known (wellFormed_empty.run edits) unlocked known selectFirst

/-- Six records, of which the second, the fifth and the last repeat an earlier one. -/
def repeating : List EventRecord :=
  [⟨"KeypressEventGUI", "Custom", some (.ofMembers [("checkKey", .string "A")]),
      [⟨"WaitCommandGUI", "WaitCommand", none⟩]⟩,
    ⟨"KeypressEventGUI", "KeypressEvent", none, []⟩,
    ⟨"TipEventGUI", "TipEvent", none, []⟩,
    ⟨"TipEventGUI", "TipEvent", some (.ofMembers []), []⟩,
    ⟨"KeypressEventGUI", "KeypressEvent", some (.ofMembers [("checkKey", .string "A")]), []⟩,
    ⟨"TipEventGUI", "Custom", none, []⟩]

theorem load_repeating :
    (empty.run overtaking).locked = false ∧ (∀ record ∈ repeating, record.Known) ∧
      ((empty.run overtaking).load repeating true).answer = .ok () ∧
      ((empty.run overtaking).load repeating true).state.save = EventRecord.unbarred repeating ∧
      (EventRecord.unbarred repeating).length = 3 ∧
      ((empty.run overtaking).load repeating true).state.selected = some ⟨3⟩ := by
  have known : ∀ record ∈ repeating, record.Known := by decide
  obtain ⟨answer, save, order, selected⟩ := load_run_empty overtaking rfl repeating known true
  have three : (EventRecord.unbarred repeating).length = 3 := by decide
  have next : (empty.run overtaking).events.next = 3 := by decide
  refine ⟨rfl, known, answer, save, three, ?_⟩
  rw [selected, order, three, next]
  rfl

end Program

end RobotProgram
