import RobotProgram.Proofs.Program.Invariant

/-!
# Reading over unknown kinds

Records are read in order, an event before its commands. Reading them fails if one of the names that
they give to kinds is the name of none, and it fails over the first such name, whether or not the
records would be used: they are all read before anything is dropped, refused or taken away.

## Main definitions

* `KindName`: what a record calls a kind.
* `CommandRecord.kindName`, `EventRecord.kindNames`: the names in records, in the order of reading.
* `FirstUnknown`: a name is the first in a list that no kind has.
* `FailsOver`: an answer is a fault just when it should be, and over the first unknown name.
-/

namespace RobotProgram

/-! ## Names -/

/-- What a record calls a kind. -/
structure KindName where
  subject : Subject
  text : String
  deriving DecidableEq

namespace KindName

/-- Some kind has the name. -/
def Known : KindName → Prop
  | ⟨.event, text⟩ => text ∈ EventKind.all.map EventKind.gui
  | ⟨.command, text⟩ => text ∈ CommandKind.all.map CommandKind.gui

instance : DecidablePred Known
  | ⟨.event, text⟩ => inferInstanceAs (Decidable (text ∈ EventKind.all.map EventKind.gui))
  | ⟨.command, text⟩ => inferInstanceAs (Decidable (text ∈ CommandKind.all.map CommandKind.gui))

def fault (name : KindName) : Fault := .unknownKind name.subject name.text

theorem known_event_iff {text : String} :
    (⟨.event, text⟩ : KindName).Known ↔ (EventKind.ofGui? text).isSome := by
  simp [Known, EventKind.ofGui?, List.find?_isSome]

theorem known_command_iff {text : String} :
    (⟨.command, text⟩ : KindName).Known ↔ (CommandKind.ofGui? text).isSome := by
  simp [Known, CommandKind.ofGui?, List.find?_isSome]

end KindName

def CommandRecord.kindName (record : CommandRecord) : KindName := ⟨.command, record.typeGui⟩

/-- The name of the event and then those of its commands. -/
def EventRecord.kindNames (record : EventRecord) : List KindName :=
  ⟨.event, record.typeGui⟩ :: record.commandList.map CommandRecord.kindName

/-- The first name that no kind has. -/
def FirstUnknown (names : List KindName) (name : KindName) : Prop :=
  ∃ before after, names = before ++ name :: after ∧ (∀ earlier ∈ before, earlier.Known) ∧
    ¬ name.Known

/-- An answer that is a fault if there is an unknown name, over the first one, and only then. -/
structure FailsOver {ρ : Type} (names : List KindName) (answer : Except Fault ρ) : Prop where
  fails_iff : (∃ fault, answer = .error fault) ↔ ∃ name ∈ names, ¬ name.Known
  error_iff : ∀ fault, answer = .error fault ↔ ∃ name, FirstUnknown names name ∧ fault = name.fault

/-! ## The first fault -/

section Failures

variable {ρ α β : Type}

/-- The fault of an answer. -/
def failure? : Except Fault α → Option Fault
  | .ok _ => none
  | .error fault => some fault

theorem failure?_eq_some_iff {answer : Except Fault α} {fault : Fault} :
    failure? answer = some fault ↔ answer = .error fault := by
  cases answer <;> simp [failure?]

@[simp] theorem failure?_map (f : α → β) (answer : Except Fault α) :
    failure? (answer.map f) = failure? answer := by
  cases answer <;> rfl

/-- Reading a list fails as the first item does that is not read. -/
theorem failure?_mapM (read : ρ → Except Fault α) (records : List ρ) :
    failure? (records.mapM read) = records.findSome? fun record => failure? (read record) := by
  induction records with
  | nil => rfl
  | cons record rest ih =>
    rw [List.mapM_cons, List.findSome?_cons]
    cases read record with
    | error fault => rfl
    | ok x =>
      rw [← ih]
      cases rest.mapM read <;> rfl

/-- The fault over the first unknown name. -/
def firstFault? (names : List KindName) : Option Fault :=
  (names.find? fun name => decide ¬ name.Known).map KindName.fault

section Names

variable {names : List KindName} {name : KindName}

theorem firstFault?_cons_of_known (known : name.Known) :
    firstFault? (name :: names) = firstFault? names := by
  simp [firstFault?, known]

theorem firstFault?_cons_of_unknown (unknown : ¬ name.Known) :
    firstFault? (name :: names) = some name.fault := by
  simp [firstFault?, unknown]

theorem find?_eq_some_iff_firstUnknown :
    (names.find? fun name => decide ¬ name.Known) = some name ↔ FirstUnknown names name := by
  rw [List.find?_eq_some_iff_append]
  simp only [FirstUnknown, decide_eq_true_eq, Bool.not_eq_true', decide_eq_false_iff_not, not_not]
  constructor
  · rintro ⟨unknown, before, after, split, known⟩
    exact ⟨before, after, split, known, unknown⟩
  · rintro ⟨before, after, split, known, unknown⟩
    exact ⟨unknown, before, after, split, known⟩

theorem FailsOver.of_failure {answer : Except Fault α}
    (same : failure? answer = firstFault? names) : FailsOver names answer := by
  have error_iff (fault : Fault) :
      answer = .error fault ↔ ∃ name, FirstUnknown names name ∧ fault = name.fault := by
    rw [← failure?_eq_some_iff, same, firstFault?, Option.map_eq_some_iff]
    simp only [find?_eq_some_iff_firstUnknown, eq_comm (a := fault)]
  refine ⟨?_, error_iff⟩
  calc (∃ fault, answer = .error fault)
      ↔ ∃ name, FirstUnknown names name := by simp [error_iff]
    _ ↔ (names.find? fun name => decide ¬ name.Known).isSome := by
        simp [Option.isSome_iff_exists, ← find?_eq_some_iff_firstUnknown]
    _ ↔ ∃ name ∈ names, ¬ name.Known := by simp [List.find?_isSome]

end Names

/-- What is read one by one fails over the first unknown name of all. -/
theorem failure?_mapM_eq {read : ρ → Except Fault α} {namesOf : ρ → List KindName}
    (each : ∀ record, failure? (read record) = firstFault? (namesOf record)) (records : List ρ) :
    failure? (records.mapM read) = firstFault? (records.flatMap namesOf) :=
  calc failure? (records.mapM read)
      = records.findSome? fun record => failure? (read record) := failure?_mapM read records
    _ = records.findSome? fun record => firstFault? (namesOf record) := by simp only [each]
    _ = firstFault? (records.flatMap namesOf) := by
      rw [firstFault?, List.find?_flatMap, List.map_findSome?]
      rfl

end Failures

/-! ## Commands, routines and events -/

theorem Command.failure?_ofRecord (record : CommandRecord) :
    failure? (ofRecord record) = firstFault? [record.kindName] := by
  unfold ofRecord
  cases found : CommandKind.ofGui? record.typeGui with
  | none =>
    have unknown : ¬ record.kindName.Known := by
      simp [CommandRecord.kindName, KindName.known_command_iff, found]
    rw [firstFault?_cons_of_unknown unknown]
    rfl
  | some kind =>
    have known : record.kindName.Known := by
      simp [CommandRecord.kindName, KindName.known_command_iff, found]
    rw [firstFault?_cons_of_known known]
    rfl

namespace Routine

theorem failure?_mapM_ofRecord (records : List CommandRecord) :
    failure? (records.mapM Command.ofRecord) =
      firstFault? (records.map CommandRecord.kindName) := by
  rw [List.map_eq_flatMap]
  exact failure?_mapM_eq Command.failure?_ofRecord records

theorem failure?_ofRecords (records : List CommandRecord) :
    failure? (ofRecords records) = firstFault? (records.map CommandRecord.kindName) := by
  rw [ofRecords_eq, failure?_map, failure?_mapM_ofRecord]

/-- A routine reads all records, and refuses afterwards if it is locked. -/
theorem failure?_load (r : Routine) (records : List CommandRecord) :
    failure? (r.load records).answer = firstFault? (records.map CommandRecord.kindName) := by
  rw [← failure?_mapM_ofRecord, load]
  cases records.mapM Command.ofRecord with
  | error fault => rfl
  | ok commands =>
    rw [Outcome.answer_after]
    split <;> rfl

theorem state_load_of_error {r : Routine} {records : List CommandRecord} {fault : Fault}
    (failed : (r.load records).answer = .error fault) : (r.load records).state = r := by
  unfold load at failed ⊢
  cases made : records.mapM Command.ofRecord with
  | error first => rfl
  | ok commands =>
    rw [made, Outcome.answer_after] at failed
    split at failed <;> cases failed

end Routine

theorem Event.failure?_ofRecord (record : EventRecord) :
    failure? (ofRecord record) = firstFault? record.kindNames := by
  unfold ofRecord EventRecord.kindNames
  cases found : EventKind.ofGui? record.typeGui with
  | none =>
    rw [firstFault?_cons_of_unknown (by simp [KindName.known_event_iff, found])]
    rfl
  | some kind =>
    rw [firstFault?_cons_of_known (by simp [KindName.known_event_iff, found]), failure?_map]
    exact Routine.failure?_ofRecords record.commandList

/-! ## Programs -/

namespace Program

variable {p : Program}

/-- A program reads all records, and refuses or drops them afterwards. -/
theorem failure?_load (p : Program) (records : List EventRecord) (selectFirst : Bool) :
    failure? (p.load records selectFirst).answer =
      firstFault? (records.flatMap EventRecord.kindNames) := by
  rw [← failure?_mapM_eq Event.failure?_ofRecord, load]
  cases records.mapM Event.ofRecord with
  | error fault => rfl
  | ok events =>
    rw [Outcome.answer_after]
    split <;> rfl

theorem state_load_of_error {records : List EventRecord} {selectFirst : Bool} {fault : Fault}
    (failed : (p.load records selectFirst).answer = .error fault) :
    (p.load records selectFirst).state = p := by
  unfold load at failed ⊢
  cases made : records.mapM Event.ofRecord with
  | error first => rfl
  | ok events =>
    rw [made, Outcome.answer_after] at failed
    split at failed <;> cases failed

/-- A locked program refuses before it reads. -/
theorem failure?_add (unlocked : p.locked = false) (kind : EventKind) (parameters : Parameters)
    (records : List CommandRecord) :
    failure? (p.add kind parameters records).answer =
      firstFault? (records.map CommandRecord.kindName) := by
  rw [← Routine.failure?_ofRecords, add, if_neg (by simp [unlocked])]
  cases Routine.ofRecords records <;> rfl

theorem state_add_of_error {kind : EventKind} {parameters : Parameters}
    {records : List CommandRecord} {fault : Fault}
    (failed : (p.add kind parameters records).answer = .error fault) :
    (p.add kind parameters records).state = p := by
  unfold add at failed ⊢
  split at failed
  · rw [if_pos ‹_›]
    rfl
  · cases made : Routine.ofRecords records with
    | error first => rw [if_neg ‹_›]
    | ok routine =>
      rw [made] at failed
      cases failed

/--
Loading a program or a routine, locked or not, making a routine and adding an event with one all
fail over the first unknown name in their records, or not at all; a failure changes nothing.
-/
theorem failsOver_records :
    (∀ (p : Program) records selectFirst,
      FailsOver (records.flatMap EventRecord.kindNames) (p.load records selectFirst).answer ∧
        ∀ fault, (p.load records selectFirst).answer = .error fault →
          (p.load records selectFirst).state = p) ∧
    (∀ (r : Routine) records,
      FailsOver (records.map CommandRecord.kindName) (r.load records).answer ∧
        ∀ fault, (r.load records).answer = .error fault → (r.load records).state = r) ∧
    (∀ records, FailsOver (records.map CommandRecord.kindName) (Routine.ofRecords records)) ∧
    ∀ (p : Program) kind parameters records, p.locked = false →
      FailsOver (records.map CommandRecord.kindName) (p.add kind parameters records).answer ∧
        ∀ fault, (p.add kind parameters records).answer = .error fault →
          (p.add kind parameters records).state = p := by
  refine ⟨fun p records selectFirst => ⟨?_, fun fault => state_load_of_error⟩,
    fun r records => ⟨?_, fun fault => Routine.state_load_of_error⟩, fun records => ?_,
    fun p kind parameters records unlocked => ⟨?_, fun fault => state_add_of_error⟩⟩
  · exact .of_failure (failure?_load p records selectFirst)
  · exact .of_failure (Routine.failure?_load r records)
  · exact .of_failure (Routine.failure?_ofRecords records)
  · exact .of_failure (failure?_add unlocked kind parameters records)

/-- An event that is there twice, the second time with a command of no kind, and one of no kind. -/
def misspelt : List EventRecord :=
  [⟨"TipEventGUI", "TipEvent", none, []⟩,
    ⟨"TipEventGUI", "TipEvent", none,
      [⟨"WaitCommandGUI", "WaitCommand", none⟩, ⟨"NapCommandGUI", "NapCommand", none⟩]⟩,
    ⟨"NapEventGUI", "NapEvent", none, []⟩]

theorem failsOver_misspelt :
    ((empty.setLock true).load misspelt true).answer =
        .error (.unknownKind .command "NapCommandGUI") ∧
      ((empty.setLock true).load misspelt true).state = empty.setLock true ∧
      (empty.add .step none [⟨"NapCommandGUI", "NapCommand", none⟩]).answer =
        .error (.unknownKind .command "NapCommandGUI") := by
  obtain ⟨load, -, -, add⟩ := failsOver_records
  obtain ⟨fails, kept⟩ := load (empty.setLock true) misspelt true
  have first : FirstUnknown (misspelt.flatMap EventRecord.kindNames) ⟨.command, "NapCommandGUI"⟩ :=
    ⟨[⟨.event, "TipEventGUI"⟩, ⟨.event, "TipEventGUI"⟩, ⟨.command, "WaitCommandGUI"⟩],
      [⟨.event, "NapEventGUI"⟩], rfl, by decide, by decide⟩
  have only : FirstUnknown [⟨.command, "NapCommandGUI"⟩] ⟨.command, "NapCommandGUI"⟩ :=
    ⟨[], [], rfl, by decide, by decide⟩
  have failed := (fails.error_iff _).mpr ⟨_, first, rfl⟩
  exact ⟨failed, kept _ failed, ((add empty .step none _ rfl).1.error_iff _).mpr ⟨_, only, rfl⟩⟩

end Program

end RobotProgram
