import Mathlib.Logic.Relation
import RobotProgram.Proofs.Json.Relayout
import RobotProgram.Proofs.Json.Written
import RobotProgram.Record

/-!
# Save files do not depend on how their records are laid out

A record in a save file may be written as an object, with its members in any order and with members
of other names among them, or as the list of its fields; parameters and commands may be missing. All
these ways to write a record, and the commands in it, are read as the same records.

## Main definitions

* `Default`: the members that may be missing, with the values that they have then.
* `Relaid`: two ways to write one record.
* `EventRecord.Relaid`: two ways to write one event, as far as it or one of its commands differs.
* `SaveFile.Relaid`: two ways to write one save file, as far as one of its events differs.

## Main results

* `SaveFile.read_iff_of_relaid`: files that are written in different ways are read as the same.
* `SaveFile.exists_isFile_relaid`: these are all the ways in which what is read can be written, and
  every event of a text that is read may be written in another way.
-/

namespace RobotProgram

open Json (Format Layout Reads Blank IsValue IsList IsObject Takes IsListOf LaidOut)

/-- The members that may be missing, with the values that they have then. -/
inductive Default : String → List Char → Prop where
  | parameters : Default "parameters" ['n', 'u', 'l', 'l']
  | commandList {written : List Char} (h : IsList written []) : Default "commandList" written

/-- Two ways to write one record. -/
inductive Relaid {ρ : Type} (layout : Layout ρ) : List Char → List Char → Prop where
  /-- The members are in another order, or they are spaced and their names are spelled otherwise. -/
  | reorder {w w' : List Char} {ps qs : List (String × List Char)} (h : IsObject w ps)
      (h' : IsObject w' qs) (perm : ps.Perm qs) : Relaid layout w w'
  /-- There is a further member, whose name is that of no field. -/
  | insert {w w' value : List Char} {name : String} {ps : List (String × List Char)}
      (h : IsObject w ps) (h' : IsObject w' ((name, value) :: ps))
      (unknown : layout.field? name = none) : Relaid layout w w'
  /-- A member is missing that may be. -/
  | default {w w' value : List Char} {name : String} {ps : List (String × List Char)}
      (h : IsObject w ps) (h' : IsObject w' ((name, value) :: ps))
      (known : (layout.field? name).isSome) (new : name ∉ ps.map Prod.fst)
      (default : Default name value) : Relaid layout w w'
  /-- The values of the first fields, in order, are the items of a list. -/
  | list {w w' : List Char} {ps : List (String × List Char)} (h : IsObject w ps)
      (h' : IsList w' (ps.map Prod.snd))
      (front : ps.map Prod.fst <+: layout.fields.map (·.name)) : Relaid layout w w'

/-! ## Records -/

section Record

variable {ρ : Type} {layout : Layout ρ} {depth : Nat}

/-- A record is read as the same from both. -/
theorem Relaid.reads_iff {w w' : List Char} (h : Relaid layout w w') (sound : layout.Sound depth)
    (idle : ∀ {name value}, Default name value → (layout.field? name).isSome →
      layout.Idle depth name value) {record : ρ} :
    Reads (layout.ofText (depth + 1)) w record ↔ Reads (layout.ofText (depth + 1)) w' record := by
  cases h with
  | reorder h h' perm =>
    rw [Layout.reads_object_iff sound.settles h, Layout.reads_object_iff sound.settles h']
    exact ⟨Layout.exists_fills_of_perm sound h.values perm,
      Layout.exists_fills_of_perm sound h'.values perm.symm⟩
  | insert h h' unknown =>
    rw [Layout.reads_object_iff sound.settles h, Layout.reads_object_iff sound.settles h']
    simp only [Layout.fills_unknown_iff unknown]
  | default h h' known new default =>
    rw [Layout.reads_object_iff sound.settles h, Layout.reads_object_iff sound.settles h']
    exact (Layout.exists_fills_idle_iff sound (idle default known) new).symm
  | list h h' front =>
    rw [Layout.reads_object_iff sound.settles h, Layout.reads_list_iff sound.settles h']
    simp only [Layout.fills_iff_fillsFirst sound front]

end Record

namespace CommandRecord

/-- The changes that the values of a field make. -/
inductive Change : String → (CommandRecord → CommandRecord) → Prop where
  | typeGui (s : String) : Change "typeGUI" fun r => { r with typeGui := s }
  | typeLogic (s : String) : Change "typeLogic" fun r => { r with typeLogic := s }
  | parameters (p : Parameters) : Change "parameters" fun r => { r with parameters := p }

theorem Change.commutes {a b : String} {p q : CommandRecord → CommandRecord} (h : Change a p)
    (h' : Change b q) (other : a ≠ b) (record : CommandRecord) : p (q record) = q (p record) := by
  cases h <;> cases h' <;> first | rfl | exact absurd rfl other

theorem settles_fields (depth : Nat) : ∀ field ∈ layout.fields, field.format.Settles depth := by
  simp only [layout, List.forall_mem_cons]
  exact ⟨Format.settles_map Format.settles_string _, Format.settles_map Format.settles_string _,
    Format.settles_map (Format.settles_optional Format.settles_bag) _, nofun⟩

theorem change_of_reads (depth : Nat) : ∀ field ∈ layout.fields, ∀ {value put}, IsValue value →
    Reads (field.format.ofText depth) value put → Change field.name put := by
  simp only [layout, List.forall_mem_cons]
  refine ⟨fun valid reads => ?_, fun valid reads => ?_, fun valid reads => ?_, nofun⟩
  · obtain ⟨s, -, rfl⟩ := (Format.reads_map_iff Format.settles_string valid).mp reads
    exact .typeGui s
  · obtain ⟨s, -, rfl⟩ := (Format.reads_map_iff Format.settles_string valid).mp reads
    exact .typeLogic s
  · obtain ⟨p, -, rfl⟩ :=
      (Format.reads_map_iff (Format.settles_optional Format.settles_bag) valid).mp reads
    exact .parameters p

theorem sound (depth : Nat) : layout.Sound depth where
  names := by decide
  settles := settles_fields depth
  commutes f hf g hg other _ _ _ _ hv hw readsf readsg :=
    (change_of_reads depth f hf hv readsf).commutes (change_of_reads depth g hg hw readsg) other

theorem idle {depth : Nat} {name : String} {value : List Char} (h : Default name value)
    (known : (layout.field? name).isSome) : layout.Idle depth name value := by
  cases h with
  | parameters =>
    have reads := Format.reads_map (@Format.reads_null _ depth 0 Format.bag)
      fun p (r : CommandRecord) => { r with parameters := p }
    exact ⟨_, _, rfl, rfl, reads, rfl⟩
  | commandList => cases known

theorem settles (depth : Nat) : layout.format.Settles depth := by
  cases depth with
  | zero => exact Layout.settles_format_zero
  | succ depth => exact Layout.settles_format (settles_fields depth)

theorem takes (depth : Nat) : Takes LaidOut (layout.format.ofText depth) := by
  refine Layout.takes_format (fun depth => ?_) depth
  simp only [layout, List.forall_mem_cons]
  exact ⟨Format.takes_map Format.takes_string _, Format.takes_map Format.takes_string _,
    Format.takes_map (Format.takes_optional Format.takes_bag) _, nofun⟩

end CommandRecord

namespace EventRecord

/-- The changes that the values of a field make. -/
inductive Change : String → (EventRecord → EventRecord) → Prop where
  | typeGui (s : String) : Change "typeGUI" fun r => { r with typeGui := s }
  | typeLogic (s : String) : Change "typeLogic" fun r => { r with typeLogic := s }
  | parameters (p : Parameters) : Change "parameters" fun r => { r with parameters := p }
  | commandList (cs : List CommandRecord) :
      Change "commandList" fun r => { r with commandList := cs }

theorem Change.commutes {a b : String} {p q : EventRecord → EventRecord} (h : Change a p)
    (h' : Change b q) (other : a ≠ b) (record : EventRecord) : p (q record) = q (p record) := by
  cases h <;> cases h' <;> first | rfl | exact absurd rfl other

theorem settles_commands (depth : Nat) : CommandRecord.layout.format.list.Settles depth := by
  cases depth with
  | zero => exact Format.settles_list_zero
  | succ depth => exact Format.settles_list (CommandRecord.settles depth)

theorem settles_fields (depth : Nat) : ∀ field ∈ layout.fields, field.format.Settles depth := by
  simp only [layout, List.forall_mem_cons]
  exact ⟨Format.settles_map Format.settles_string _, Format.settles_map Format.settles_string _,
    Format.settles_map (Format.settles_optional Format.settles_bag) _,
    Format.settles_map (settles_commands depth) _, nofun⟩

theorem change_of_reads (depth : Nat) : ∀ field ∈ layout.fields, ∀ {value put}, IsValue value →
    Reads (field.format.ofText depth) value put → Change field.name put := by
  simp only [layout, List.forall_mem_cons]
  refine ⟨fun valid reads => ?_, fun valid reads => ?_, fun valid reads => ?_,
    fun valid reads => ?_, nofun⟩
  · obtain ⟨s, -, rfl⟩ := (Format.reads_map_iff Format.settles_string valid).mp reads
    exact .typeGui s
  · obtain ⟨s, -, rfl⟩ := (Format.reads_map_iff Format.settles_string valid).mp reads
    exact .typeLogic s
  · obtain ⟨p, -, rfl⟩ :=
      (Format.reads_map_iff (Format.settles_optional Format.settles_bag) valid).mp reads
    exact .parameters p
  · obtain ⟨cs, -, rfl⟩ := (Format.reads_map_iff (settles_commands depth) valid).mp reads
    exact .commandList cs

theorem sound (depth : Nat) : layout.Sound depth where
  names := by decide
  settles := settles_fields depth
  commutes f hf g hg other _ _ _ _ hv hw readsf readsg :=
    (change_of_reads depth f hf hv readsf).commutes (change_of_reads depth g hg hw readsg) other

theorem idle {depth : Nat} {name : String} {value : List Char} (h : Default name value)
    (_ : (layout.field? name).isSome) : layout.Idle (depth + 1) name value := by
  cases h with
  | parameters =>
    have reads := Format.reads_map (@Format.reads_null _ (depth + 1) 0 Format.bag)
      fun p (r : EventRecord) => { r with parameters := p }
    exact ⟨_, _, rfl, rfl, reads, rfl⟩
  | commandList h =>
    have none := (Format.reads_list_iff h (CommandRecord.settles depth)).mpr .nil
    have reads := Format.reads_map none fun cs (r : EventRecord) => { r with commandList := cs }
    exact ⟨_, _, rfl, rfl, reads, rfl⟩

/-- Two ways to write one event, as far as it or one of its commands differs. -/
inductive Relaid : List Char → List Char → Prop where
  | record {w w' : List Char} (h : RobotProgram.Relaid layout w w') : Relaid w w'
  | command {w w' l l' c c' : List Char} {ps qs : List (String × List Char)}
      {us vs : List (List Char)} (h : IsObject w (ps ++ ("commandList", l) :: qs))
      (h' : IsObject w' (ps ++ ("commandList", l') :: qs)) (commands : IsList l (us ++ c :: vs))
      (commands' : IsList l' (us ++ c' :: vs))
      (relaid : RobotProgram.Relaid CommandRecord.layout c c') : Relaid w w'

/-- An event is read as the same from both. -/
theorem Relaid.reads_iff {depth : Nat} {w w' : List Char} (h : Relaid w w') {record : EventRecord} :
    Reads (layout.ofText (depth + 3)) w record ↔ Reads (layout.ofText (depth + 3)) w' record := by
  cases h with
  | record h => exact h.reads_iff (sound (depth + 2)) idle
  | command h h' commands commands' relaid =>
    rw [Layout.reads_object_iff (settles_fields (depth + 2)) h,
      Layout.reads_object_iff (settles_fields (depth + 2)) h']
    refine exists_congr fun puts => and_congr_left fun _ =>
      Layout.fills_replace_iff fun field found put => ?_
    cases found
    rw [Format.reads_map_iff (settles_commands (depth + 2)) commands.isValue,
      Format.reads_map_iff (settles_commands (depth + 2)) commands'.isValue]
    refine exists_congr fun cs => and_congr_left fun _ => ?_
    rw [Format.reads_list_iff commands (CommandRecord.settles (depth + 1)),
      Format.reads_list_iff commands' (CommandRecord.settles (depth + 1))]
    exact Layout.forall₂_replace fun record =>
      relaid.reads_iff (CommandRecord.sound depth) CommandRecord.idle

theorem settles (depth : Nat) : layout.format.Settles depth := by
  cases depth with
  | zero => exact Layout.settles_format_zero
  | succ depth => exact Layout.settles_format (settles_fields depth)

/-! ### What is read -/

theorem takes_commands (depth : Nat) :
    Takes (IsListOf LaidOut) (CommandRecord.layout.format.list.ofText depth) :=
  Format.takes_list CommandRecord.takes fun _ laidOut => laidOut.isValue

theorem takes (depth : Nat) : Takes LaidOut (layout.format.ofText depth) := by
  refine Layout.takes_format (fun depth => ?_) depth
  simp only [layout, List.forall_mem_cons]
  exact ⟨Format.takes_map Format.takes_string _, Format.takes_map Format.takes_string _,
    Format.takes_map (Format.takes_optional Format.takes_bag) _,
    Format.takes_map ((takes_commands depth).mono fun _ list => list.isValue) _, nofun⟩

/-- In an event that is read, the commands are written as records too. -/
theorem isListOf_commands {depth : Nat} {w l : List Char} {ps qs : List (String × List Char)}
    (h : IsObject w (ps ++ ("commandList", l) :: qs)) {record : EventRecord}
    (reads : Reads (layout.ofText (depth + 1)) w record) : IsListOf LaidOut l := by
  obtain ⟨puts, fills, -⟩ := (Layout.reads_object_iff (settles_fields depth) h).mp reads
  have known : ("commandList", l) ∈ layout.known (ps ++ ("commandList", l) :: qs) :=
    List.mem_filter.mpr ⟨List.mem_append_right _ List.mem_cons_self, rfl⟩
  obtain ⟨⟨field, put⟩, -, found, reads⟩ := Layout.exists_of_mem_left fills.each _ known
  cases found
  exact (Format.takes_map (takes_commands depth)
    fun cs (r : EventRecord) => { r with commandList := cs }).of_reads reads

end EventRecord

namespace SaveFile

/-- The text is a list of events that are written as these. -/
def IsFile (text : String) (events : List (List Char)) : Prop :=
  ∃ before written after, text.toList = before ++ (written ++ after) ∧ Blank before ∧ Blank after ∧
    IsList written events

/-- Two ways to write one save file, as far as one of its events differs. -/
inductive Relaid : String → String → Prop where
  | event {text text' : String} {w w' : List Char} {us vs : List (List Char)}
      (h : IsFile text (us ++ w :: vs)) (h' : IsFile text' (us ++ w' :: vs))
      (relaid : EventRecord.Relaid w w') : Relaid text text'

theorem read_eq_ok_iff {text : String} {records : List EventRecord} :
    read text = .ok records ↔ EventRecord.format.list.readText text = .ok records := by
  unfold read
  cases EventRecord.format.list.readText text <;> simp [Except.mapError]

/-- What is read is a file, and its events are written as records. -/
theorem exists_isFile_of_read {text : String} {records : List EventRecord}
    (h : read text = .ok records) : ∃ events, IsFile text events ∧ ∀ w ∈ events, LaidOut w := by
  obtain ⟨before, w, after, whole, blankBefore, blankAfter, events, list, laidOut⟩ :=
    Format.exists_of_readText (Format.takes_list EventRecord.takes fun _ laidOut => laidOut.isValue)
      (read_eq_ok_iff.mp h)
  exact ⟨events, ⟨before, w, after, whole, blankBefore, blankAfter, list⟩, laidOut⟩

/-- A file is read as its events are. -/
theorem IsFile.read_iff {text : String} {events : List (List Char)} (h : IsFile text events)
    {records : List EventRecord} :
    read text = .ok records ↔
      List.Forall₂ (Reads (EventRecord.layout.ofText 126)) events records := by
  obtain ⟨before, written, after, whole, blankBefore, blankAfter, list⟩ := h
  have settles : EventRecord.format.list.Settles Json.depthLimit :=
    Format.settles_list (EventRecord.settles 126)
  rw [read_eq_ok_iff, Format.readText_eq_ok_iff settles blankBefore blankAfter list.isValue whole]
  exact Format.reads_list_iff list (EventRecord.settles 126)

/-- One difference in how a file is written makes no difference to what is read. -/
theorem Relaid.read_iff {text text' : String} (h : Relaid text text')
    (records : List EventRecord) : read text = .ok records ↔ read text' = .ok records := by
  obtain ⟨file, file', relaid⟩ := h
  rw [file.read_iff, file'.read_iff]
  exact Json.Layout.forall₂_replace fun record =>
    @EventRecord.Relaid.reads_iff 123 _ _ relaid record

/-- Files that are written in different ways, one difference after another, are read as the same. -/
theorem read_iff_of_relaid {text text' : String} (h : Relation.EqvGen Relaid text text')
    (records : List EventRecord) : read text = .ok records ↔ read text' = .ok records := by
  induction h with
  | rel text text' step => exact step.read_iff records
  | refl text => rfl
  | symm text text' _ ih => exact ih.symm
  | trans text mid text' _ _ first second => exact first.trans second

/--
Every text that is read is a file of events that are written as objects or as lists, and so are the
commands in them; whichever of its events is written in another way, the file is read as the same.
-/
theorem exists_isFile_relaid {text : String} {records : List EventRecord}
    (h : read text = .ok records) :
    ∃ events, IsFile text events ∧
      (∀ w ∈ events, LaidOut w ∧
        ∀ ps l qs, IsObject w (ps ++ ("commandList", l) :: qs) → IsListOf LaidOut l) ∧
      ∀ us w vs w' text', events = us ++ w :: vs → EventRecord.Relaid w w' →
        IsFile text' (us ++ w' :: vs) → read text' = .ok records := by
  obtain ⟨events, file, laidOut⟩ := exists_isFile_of_read h
  have each := file.read_iff.mp h
  refine ⟨events, file, fun w mem => ⟨laidOut w mem, fun ps l qs object => ?_⟩, ?_⟩
  · obtain ⟨record, -, reads⟩ := Layout.exists_of_mem_left each w mem
    exact EventRecord.isListOf_commands object reads
  · rintro us w vs w' text' rfl relaid file'
    exact ((Relaid.event file file' relaid).read_iff records).mp h

/-! ### A record as an object and as a list -/

theorem isFile_bare {text : String} (events : List (List Char)) (valid : ∀ w ∈ events, IsValue w)
    (whole : text.toList = Json.listText [] (events.map Json.Item.bare)) : IsFile text events :=
  ⟨[], _, [], whole.trans (List.append_nil _).symm, Json.blank_nil, Json.blank_nil,
    Json.isList_bare events valid⟩

theorem Relaid.single {text text' : String} {w w' : List Char} (h : IsFile text [w])
    (h' : IsFile text' [w']) (relaid : RobotProgram.Relaid EventRecord.layout w w') :
    Relaid text text' :=
  @Relaid.event _ _ _ _ [] [] h h' (.record relaid)

/-- A string that needs no escapes, between quotation marks. -/
def quoted (s : String) : List Char := '"' :: (s.toList ++ ['"'])

theorem isValue_quoted {s : String} (h : Json.Unescaped s.toList) : IsValue (quoted s) :=
  .string h.spells.isBody

def gui : String × List Char := ("typeGUI", quoted "StepEventGUI")

def logic : String × List Char := ("typeLogic", quoted "StepEvent")

/-- A member whose name is that of no field. -/
def comment : String × List Char := ("comment", Json.listText [] [])

/-- An event with its members in another order, and with one that is ignored. -/
def shuffledStep : String :=
  "[\x7b\"typeLogic\":\"StepEvent\",\"comment\":[],\"typeGUI\":\"StepEventGUI\"\x7d]"

def sortedStep : String :=
  "[\x7b\"comment\":[],\"typeGUI\":\"StepEventGUI\",\"typeLogic\":\"StepEvent\"\x7d]"

def knownStep : String :=
  "[\x7b\"typeGUI\":\"StepEventGUI\",\"typeLogic\":\"StepEvent\"\x7d]"

/-- The same event as the list of its first fields. -/
def listedStep : String := "[[\"StepEventGUI\",\"StepEvent\"]]"

/-- From the shuffled object to the list: reordered, without the comment, and as a list. -/
theorem read_listedStep :
    Relation.EqvGen Relaid shuffledStep listedStep ∧
      SaveFile.read listedStep = .ok [⟨"StepEventGUI", "StepEvent", none, []⟩] := by
  have valid : IsValue gui.2 ∧ IsValue logic.2 ∧ IsValue comment.2 :=
    ⟨isValue_quoted (by decide), isValue_quoted (by decide), (Json.isList_bare [] nofun).isValue⟩
  have shuffled := Json.isObject_bare [logic, comment, gui] (by decide) (by simp [valid])
  have sorted := Json.isObject_bare [comment, gui, logic] (by decide) (by simp [valid])
  have known := Json.isObject_bare [gui, logic] (by decide) (by simp [valid])
  have listed := Json.isList_bare [gui.2, logic.2] (by simp [valid])
  have file {w : List Char} (value : IsValue w) {text : String}
      (whole : text.toList = Json.listText [] [.bare w]) : IsFile text [w] :=
    isFile_bare [w] (List.forall_mem_singleton.mpr value) whole
  have shuffledFile : IsFile shuffledStep _ := file shuffled.isValue (by decide +kernel)
  have sortedFile : IsFile sortedStep _ := file sorted.isValue (by decide +kernel)
  have knownFile : IsFile knownStep _ := file known.isValue (by decide +kernel)
  have listedFile : IsFile listedStep _ := file listed.isValue (by decide +kernel)
  have reordered := Relaid.single shuffledFile sortedFile (.reorder shuffled sorted (by decide))
  have inserted := Relaid.single knownFile sortedFile (.insert known sorted rfl)
  have asList := Relaid.single knownFile listedFile (.list known listed (by decide))
  have relaid : Relation.EqvGen Relaid shuffledStep listedStep :=
    (Relation.EqvGen.rel _ _ reordered).trans _ _ _
      (((Relation.EqvGen.rel _ _ inserted).symm _ _).trans _ _ _ (.rel _ _ asList))
  exact ⟨relaid, (read_iff_of_relaid relaid _).mp rfl⟩

end SaveFile

end RobotProgram
