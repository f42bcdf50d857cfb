import RobotProgram.Proofs.Json.Formats
import RobotProgram.Proofs.Json.Nesting
import RobotProgram.Proofs.Program.Reload

/-!
# Save files are normal after one turn

Reading a save file, loading its records and writing them again gives a text that stays as it is
when that is done once more: it is read as the records that were written, all of them load, as the
events that were there, and they are written as the same text.

## Main definitions

* `Program.Normal`: a program that comes back from its own text.
-/

namespace RobotProgram

open Json (Format Layout Reads Taken)

/-! ## Records in texts -/

theorem Parameters.reads {depth level : Nat} {parameters : Parameters}
    (deep : parameters.toJson.depth ≤ depth)
    (back : ∀ x ∈ parameters.toJson.floats, x.ReadsBack) :
    Reads (Format.bag.optional.ofText depth) (Json.pretty level parameters.toJson) parameters := by
  cases parameters with
  | none => exact Format.reads_null _
  | some bag =>
    refine Format.reads_some (Format.reads_bag (Json.reads_value bag.toJson deep back)) ?_
    dsimp only [Parameters.toJson, Bag.toJson]
    cases bag.members <;> simp [Json.pretty]

section Written

theorem CommandRecord.depth_toJson (record : CommandRecord) :
    record.toJson.depth = record.parameters.toJson.depth + 1 := by
  simp [toJson, Json.depth, Json.depthMembers]

theorem CommandRecord.floats_toJson (record : CommandRecord) :
    record.toJson.floats = record.parameters.toJson.floats := by
  simp [toJson, Json.floats, Json.floatsMembers]

theorem EventRecord.depth_toJson (record : EventRecord) :
    record.toJson.depth = max record.parameters.toJson.depth
      (Json.array (record.commandList.map CommandRecord.toJson)).depth + 1 := by
  simp [toJson, Json.depth, Json.depthMembers]

theorem EventRecord.floats_toJson (record : EventRecord) :
    record.toJson.floats = record.parameters.toJson.floats ++
      Json.floatsItems (record.commandList.map CommandRecord.toJson) := by
  simp [toJson, Json.floats, Json.floatsMembers]

end Written

theorem CommandRecord.reads {depth level : Nat} {record : CommandRecord}
    (deep : record.toJson.depth ≤ depth) (back : ∀ x ∈ record.toJson.floats, x.ReadsBack) :
    Reads (CommandRecord.format.ofText depth) (Json.pretty level record.toJson) record := by
  rw [depth_toJson] at deep
  rw [floats_toJson] at back
  obtain ⟨depth, rfl⟩ := Nat.exists_eq_succ_of_ne_zero (Nat.ne_zero_of_lt deep)
  have parameters : Reads (Format.bag.optional.ofText depth)
      (Json.pretty (level + 1) record.parameters.toJson) record.parameters :=
    Parameters.reads (Nat.le_of_succ_le_succ deep) back
  refine Layout.reads_object ["parameters", "typeLogic", "typeGUI"] ?_ rfl
  refine .cons (Layout.reads_member rfl rfl (Format.reads_string _)) ?_
  refine .cons (Layout.reads_member rfl rfl (Format.reads_string _)) ?_
  refine .cons (Layout.reads_member rfl rfl parameters) ?_
  exact .nil _

theorem CommandRecord.reads_list {depth level : Nat} {records : List CommandRecord}
    (deep : (Json.array (records.map toJson)).depth ≤ depth)
    (back : ∀ x ∈ Json.floatsItems (records.map toJson), x.ReadsBack) :
    Reads (CommandRecord.format.list.ofText depth)
      (Json.pretty level (.array (records.map toJson))) records := by
  obtain ⟨depth, rfl⟩ := Nat.exists_eq_succ_of_ne_zero (Nat.ne_zero_of_lt deep)
  have items := Json.depthItems_le_iff.mp (Nat.le_of_succ_le_succ deep)
  refine Format.reads_list fun record hr => ?_
  have mem : record.toJson ∈ records.map toJson := List.mem_map_of_mem hr
  exact CommandRecord.reads (items _ mem) fun x hx =>
    back x (Json.mem_floatsItems.mpr ⟨_, mem, hx⟩)

theorem EventRecord.reads {depth level : Nat} {record : EventRecord}
    (deep : record.toJson.depth ≤ depth) (back : ∀ x ∈ record.toJson.floats, x.ReadsBack) :
    Reads (EventRecord.format.ofText depth) (Json.pretty level record.toJson) record := by
  rw [depth_toJson] at deep
  rw [floats_toJson, List.forall_mem_append] at back
  obtain ⟨depth, rfl⟩ := Nat.exists_eq_succ_of_ne_zero (Nat.ne_zero_of_lt deep)
  have deep := Nat.max_le.mp (Nat.le_of_succ_le_succ deep)
  have parameters : Reads (Format.bag.optional.ofText depth)
      (Json.pretty (level + 1) record.parameters.toJson) record.parameters :=
    Parameters.reads deep.1 back.1
  have commands : Reads (CommandRecord.format.list.ofText depth)
      (Json.pretty (level + 1) (.array (record.commandList.map CommandRecord.toJson)))
      record.commandList :=
    CommandRecord.reads_list deep.2 back.2
  refine Layout.reads_object ["commandList", "parameters", "typeLogic", "typeGUI"] ?_ rfl
  refine .cons (Layout.reads_member rfl rfl (Format.reads_string _)) ?_
  refine .cons (Layout.reads_member rfl rfl (Format.reads_string _)) ?_
  refine .cons (Layout.reads_member rfl rfl parameters) ?_
  refine .cons (Layout.reads_member rfl rfl commands) ?_
  exact .nil _

/-! ## Depth of records -/

theorem Parameters.promises {depth : Nat} :
    Format.bag.optional.Promises depth fun p : Parameters => p.toJson.depth ≤ depth :=
  Format.promises_optional (Nat.zero_le _) Format.promises_bag

theorem CommandRecord.promises {depth : Nat} :
    CommandRecord.format.Promises depth fun record => record.toJson.depth ≤ depth := by
  cases depth with
  | zero => exact Layout.promises_zero
  | succ depth =>
    simp only [depth_toJson, Nat.succ_le_succ_iff]
    refine Layout.promises_format (Nat.zero_le _) ?_
    simp only [layout, List.forall_mem_cons]
    refine ⟨?_, ?_, ?_, fun _ none => by cases none⟩
    · exact Format.promises_map fun _ _ _ _ _ deep => deep
    · exact Format.promises_map fun _ _ _ _ _ deep => deep
    · exact Format.promises_map fun _ _ _ read _ _ => Parameters.promises _ _ _ read

/-- The list of commands, which may be missing, is written in any case. -/
theorem EventRecord.promises {depth : Nat} :
    EventRecord.format.Promises (depth + 2) fun record => record.toJson.depth ≤ depth + 2 := by
  simp only [depth_toJson, Nat.succ_le_succ_iff, Nat.max_le]
  refine Layout.promises_format ⟨Nat.zero_le _, Nat.succ_le_succ (Nat.zero_le _)⟩ ?_
  simp only [layout, List.forall_mem_cons]
  refine ⟨?_, ?_, ?_, ?_, fun _ none => by cases none⟩
  · exact Format.promises_map fun _ _ _ _ _ deep => deep
  · exact Format.promises_map fun _ _ _ _ _ deep => deep
  · exact Format.promises_map fun _ _ _ read _ deep => ⟨Parameters.promises _ _ _ read, deep.2⟩
  · refine Format.promises_map fun _ _ _ read _ deep => ⟨deep.1, Nat.succ_le_succ ?_⟩
    refine Json.depthItems_le_iff.mpr (List.forall_mem_map.mpr ?_)
    exact Format.promises_list CommandRecord.promises _ _ _ read

namespace SaveFile

/-- Records that are not too deep are read from the text that is written of them. -/
theorem read_write {records : List EventRecord}
    (deep : ∀ record ∈ records, record.toJson.depth < Json.depthLimit)
    (back : ∀ record ∈ records, ∀ x ∈ record.toJson.floats, x.ReadsBack) :
    read (write records) = .ok records := by
  have each : ∀ record ∈ records,
      Reads (EventRecord.format.ofText 126) (Json.pretty 1 record.toJson) record :=
    fun record hr => EventRecord.reads (Nat.le_of_lt_succ (deep record hr)) (back record hr)
  have whole : Reads (EventRecord.format.list.ofText Json.depthLimit)
      (Json.pretty 0 (.array (records.map EventRecord.toJson))) records :=
    Format.reads_list each
  have text : (write records).toList =
      Json.pretty 0 (.array (records.map EventRecord.toJson)) ++ [] := by
    rw [List.append_nil]
    exact String.toList_ofList
  have done : EventRecord.format.list.ofText Json.depthLimit (write records).toList =
      .ok (records, []) :=
    whole.reads (text ▸ whole.skipBlank_append []) fun _ none => by cases none
  rw [read, Format.readText, done]
  rfl

/-- What is read of a text is not too deep to be read again. -/
theorem depth_lt_of_read {text : String} {records : List EventRecord}
    (h : read text = .ok records) : ∀ record ∈ records, record.toJson.depth < Json.depthLimit := by
  have taken : EventRecord.format.list.readText text = .ok records := by
    unfold read at h
    cases result : EventRecord.format.list.readText text <;> rw [result] at h <;> cases h
    rfl
  obtain ⟨⟨_, rest⟩, front, back⟩ := Json.bind_eq_ok_iff.mp taken
  dsimp only at back
  split at back
  · cases back
    intro record hr
    exact Nat.lt_succ_of_le (Format.promises_list EventRecord.promises _ _ _ front record hr)
  · cases back

/-- The text of records keeps one container more open at once than the deepest of them has. -/
theorem mostOpen_write (records : List EventRecord) :
    Json.mostOpen (write records).toList =
      Json.depthItems (records.map EventRecord.toJson) + 1 := by
  have text : (write records).toList =
      Json.pretty 0 (.array (records.map EventRecord.toJson)) := String.toList_ofList
  rw [text, Json.mostOpen_pretty, Json.depth]

/--
Records come back from their own text, exactly as they were, just if the text keeps fewer than 128
containers open at once, provided that each float in them is read as it is printed.
-/
theorem read_write_iff {records : List EventRecord}
    (back : ∀ record ∈ records, ∀ x ∈ record.toJson.floats, x.ReadsBack) :
    read (write records) = .ok records ↔ Json.mostOpen (write records).toList < 128 := by
  have few : Json.mostOpen (write records).toList < 128 ↔
      ∀ record ∈ records, record.toJson.depth ≤ 126 := by
    have all : Json.depthItems (records.map EventRecord.toJson) ≤ 126 ↔
        ∀ record ∈ records, record.toJson.depth ≤ 126 :=
      Json.depthItems_le_iff.trans List.forall_mem_map
    rw [mostOpen_write, ← all]
    omega
  rw [few]
  exact ⟨fun same record hr => Nat.le_of_lt_succ (depth_lt_of_read same record hr),
    fun deep => read_write (fun record hr => Nat.lt_succ_of_le (deep record hr)) back⟩

/-- Numbers of all kinds, characters of all sorts in keys and texts, and bags that are nested. -/
def crowded : List EventRecord :=
  [⟨"\"[\x7b\\", "\n\t\x01\x7f/é😀", none,
    [⟨"", "]\x7d", some (.ofMembers [])⟩,
      ⟨"Wait", "", some (.ofMembers
        [("", .object [("[", .array [.array [], .null, .bool false]), ("\"", .string "\\\"")]),
          ("min", .integer ⟨-0x8000000000000000, by decide, by decide⟩),
          ("max", .integer ⟨0xFFFFFFFFFFFFFFFF, by decide, by decide⟩),
          ("0", .float (.zero true)), ("1", .float ⟨false, 1023 * Nat.pow 2 52, by decide⟩),
          ("ε", .float ⟨true, 1, by decide⟩)])⟩]⟩,
    ⟨"Tip", "", some (.ofMembers []), []⟩]

theorem read_write_crowded :
    read (write crowded) = .ok crowded ∧ Json.mostOpen (write crowded).toList = 8 := by
  have most : Json.mostOpen (write crowded).toList = 8 := by
    rw [mostOpen_write]
    decide +kernel
  have back : ∀ record ∈ crowded, ∀ x ∈ record.toJson.floats, x.ReadsBack := by decide +kernel
  exact ⟨(read_write_iff back).mpr (by rw [most]; decide), most⟩

end SaveFile

/-! ## Loading what was written -/

namespace Program

/-- A program that comes back from its own text, whatever is selected then. -/
structure Normal (p : Program) : Prop where
  read : SaveFile.read (SaveFile.write p.save) = .ok p.save
  loads : ∀ selectFirst, (empty.load p.save selectFirst).answer = .ok ()
  entries : ∀ selectFirst, (empty.load p.save selectFirst).state.entries = p.entries
  save : ∀ selectFirst, (empty.load p.save selectFirst).state.save = p.save
  indents : ∀ selectFirst, (empty.load p.save selectFirst).state.indents = p.indents
  text : ∀ selectFirst,
    SaveFile.write (empty.load p.save selectFirst).state.save = SaveFile.write p.save

section Load

variable {records : List EventRecord} {selectFirst : Bool}
  (loads : (empty.load records selectFirst).answer = .ok ())
include loads

/-- What is there after loading comes of the events that were read, as far as they were kept. -/
theorem exists_firsts_of_load : ∃ events, records.mapM Event.ofRecord = .ok events ∧
    (empty.load records selectFirst).state.entries =
      Roster.numbered empty.events.next (firsts [] events) ∧
    (empty.load records selectFirst).state.save = (firsts [] events).map Event.toRecord := by
  unfold load at loads
  cases read : records.mapM Event.ofRecord with
  | error fault =>
    rw [read] at loads
    cases loads
  | ok events =>
    have state := (load_of_mapM (p := empty) rfl read selectFirst).2
    have entries := entries_reloaded wellFormed_empty.events events selectFirst
    exact ⟨events, rfl, state ▸ entries, state ▸ save_reloaded wellFormed_empty.events ..⟩

theorem save_load_sublist : (empty.load records selectFirst).state.save.Sublist records := by
  obtain ⟨events, read, -, saved⟩ := exists_firsts_of_load loads
  have written : events.map Event.toRecord = records :=
    map_of_mapM (fun h => (ofRecord_spec h).2.2) read
  rw [saved, ← written]
  exact (sieve_sublist Event.blocks [] events).map Event.toRecord

/-- Loading the records of what was loaded gives the same entries. -/
theorem load_save_load (again : Bool) :
    (empty.load (empty.load records selectFirst).state.save again).answer = .ok () ∧
      (empty.load (empty.load records selectFirst).state.save again).state.entries =
        (empty.load records selectFirst).state.entries := by
  obtain ⟨events, read, entries, saved⟩ := exists_firsts_of_load loads
  have back : ∀ event ∈ firsts [] events, Event.ofRecord event.toRecord = .ok event := by
    have all : ∀ event ∈ events, Event.ofRecord event.toRecord = .ok event :=
      forall_of_mapM read fun {record event} made => (ofRecord_spec made).2.2.symm ▸ made
    exact fun event he => all event ((sieve_sublist Event.blocks [] events).subset he)
  have made := mapM_map_eq_ok (f := id) back
  rw [List.map_id] at made
  have loaded := load_of_mapM (p := empty) rfl made again
  have same : firsts [] (firsts [] events) = firsts [] events :=
    sieve_eq_self_iff.mpr ⟨by simp, (pairwise_sieve Event.blocks [] events).2⟩
  rw [saved, loaded.2, entries, entries_reloaded wellFormed_empty.events, same]
  exact ⟨loaded.1, rfl⟩

/-- Whatever is loaded from a text comes back from its own text. -/
theorem normal_of_loaded {text : String} (read : SaveFile.read text = .ok records)
    (back : ∀ record ∈ (empty.load records selectFirst).state.save, ∀ x ∈ record.toJson.floats,
      x.ReadsBack) :
    (empty.load records selectFirst).state.Normal where
  read := SaveFile.read_write
    (fun record hr => SaveFile.depth_lt_of_read read record ((save_load_sublist loads).subset hr))
    back
  loads again := (load_save_load loads again).1
  entries again := (load_save_load loads again).2
  save again := by rw [save, (load_save_load loads again).2, ← save]
  indents again := by rw [indents, (load_save_load loads again).2, ← indents]
  text again := by rw [save, (load_save_load loads again).2, ← save]

end Load

/-- Two records as lists of their fields: one with a name twice, and one that repeats its kind. -/
def wavering : String :=
  "[[\"TipEventGUI\",\"Old\",\x7b\"b\":1,\"a\":2.5e-1,\"b\":0.5\x7d],[\"TipEventGUI\",\"\"]]"

theorem normal_wavering :
    ∃ records, SaveFile.read wavering = .ok records ∧
      (empty.load records true).answer = .ok () ∧
      (∀ record ∈ (empty.load records true).state.save, ∀ x ∈ record.toJson.floats,
        x.ReadsBack) ∧
      (empty.load records true).state.Normal ∧
      records.length = 2 ∧ (empty.load records true).state.length = 1 ∧
      ((empty.load records true).state.save.flatMap (·.toJson.floats)).length = 2 := by
  have check : (match SaveFile.read wavering with
      | .error _ => false
      | .ok records => decide ((empty.load records true).answer = .ok () ∧
        (∀ record ∈ (empty.load records true).state.save, ∀ x ∈ record.toJson.floats,
          x.ReadsBack) ∧
        records.length = 2 ∧ (empty.load records true).state.length = 1 ∧
        ((empty.load records true).state.save.flatMap (·.toJson.floats)).length = 2)) = true := by
    decide +kernel
  cases read : SaveFile.read wavering with
  | error fault =>
    rw [read] at check
    cases check
  | ok records =>
    rw [read] at check
    obtain ⟨loads, back, lengths⟩ := of_decide_eq_true check
    exact ⟨records, rfl, loads, back, normal_of_loaded loads read back, lengths⟩

end Program

end RobotProgram
