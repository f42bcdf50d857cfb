import RobotProgram.Proofs.Program.Invariant

/-!
# Replacing an event in place

An event is not replaced just if another one has the new kind and either equal parameters or, where
the new event has none, any. Else it has the new kind and parameters afterwards and is performed by
the class of that kind, where it was and with the routine that it had; all else is left alone.

## Main definitions

* `Program.Occupied`: an event other than the given one would be duplicated.
* `Program.Recast`: an event has been replaced in place.
-/

namespace RobotProgram

namespace Program

variable {p : Program} {h : Handle Event} {kind : EventKind} {parameters : Parameters}

/-- Another event has the kind and, unless there are no parameters, parameters of equal value. -/
def Occupied (p : Program) (h : Handle Event) (kind : EventKind) (parameters : Parameters) : Prop :=
  ∃ entry ∈ p.entries, entry.1 ≠ h ∧ entry.2.kind = kind ∧
    (parameters = none ∨ sameParameters entry.2.parameters parameters = true)

/-- The event of a handle has got another kind and other parameters, and nothing else has changed. -/
structure Recast (h : Handle Event) (kind : EventKind) (parameters : Parameters)
    (p q : Program) : Prop where
  /-- The routine is the very one that the old event had. -/
  event : ∃ old, p.events.find? h = some old ∧
    q.events.find? h = some ⟨kind, parameters, kind.logic, old.routine⟩
  others : ∀ k, k ≠ h → q.events.find? k = p.events.find? k
  order : q.events.order = p.events.order
  next : q.events.next = p.events.next
  selected : q.selected = p.selected
  locked : q.locked = p.locked
  /-- It is the same to store an event without commands and give it the routine of the old one. -/
  swapped : ∃ old, p.events.find? h = some old ∧
    q.events = (p.events.modify h fun _ => .new kind parameters .empty).modify h fun e =>
      { e with routine := old.routine }

theorem duplicate?_isSome_iff :
    (p.duplicate? kind parameters (some h)).isSome = true ↔ p.Occupied h kind parameters := by
  simp only [duplicate?, Option.isSome_map, List.find?_isSome, Occupied]
  refine exists_congr fun entry => and_congr_right fun _ => ?_
  simp [Event.conflicts]

theorem recast_modify (wf : p.WellFormed) (known : p.events.contains h = true) :
    Recast h kind parameters p
      { p with events := p.events.modify h fun e => .new kind parameters e.routine } := by
  obtain ⟨old, found⟩ := Option.isSome_iff_exists.mp known
  refine ⟨⟨old, found, ?_⟩, fun k other => ?_, rfl, rfl, rfl, rfl, ⟨old, found, ?_⟩⟩
  · simp [Roster.find?_modify, found, Event.new]
  · simp [Roster.find?_modify, other]
  · rw [Roster.modify_modify]
    exact Roster.modify_congr wf.events found rfl

/--
Replacing an event that is there fails just if the place is taken by another one, and then changes
nothing; else the event is replaced in place.
-/
theorem replace_in_place (wf : p.WellFormed) (unlocked : p.locked = false)
    (known : p.events.contains h = true) (kind : EventKind) (parameters : Parameters) :
    ((p.replace h kind parameters).answer = .ok .duplicate ↔ p.Occupied h kind parameters) ∧
      (p.Occupied h kind parameters → (p.replace h kind parameters).state = p) ∧
      (¬ p.Occupied h kind parameters →
        (p.replace h kind parameters).answer = .ok .replaced ∧
          Recast h kind parameters p (p.replace h kind parameters).state) := by
  obtain ⟨old, found⟩ := Option.isSome_iff_exists.mp known
  have recast : Recast h kind parameters p _ := recast_modify wf known
  rw [← duplicate?_isSome_iff, replace, found]
  dsimp only
  rw [if_neg (by simp [unlocked])]
  cases taken : p.duplicate? kind parameters (some h) with
  | some other => simp
  | none => exact ⟨by simp, by simp, fun _ => ⟨rfl, recast⟩⟩

/-- Two events for keys, the first of which has the second of its two commands left, and one for
tilting. -/
def keyed : List Edit :=
  [.add .keyPress (some (.ofMembers [("checkKey", .string "A")]))
      [⟨"StartBlockCommandGUI", "StartBlockCommand", none⟩, ⟨"WaitCommandGUI", "Custom", none⟩],
    .add .keyPress (some (.ofMembers [("checkKey", .string "B")])) [], .add .tip none [],
    .inEvent ⟨1⟩ (.delete [⟨1⟩])]

/-- The first event may have the key that it has, but not any key, as the second one has a key. -/
theorem replace_keyed :
    let p := empty.run keyed
    let own : Parameters := some (.ofMembers [("checkKey", .string "A")])
    p.WellFormed ∧ p.locked = false ∧ p.events.contains ⟨1⟩ = true ∧
      Recast ⟨1⟩ .keyPress own p (p.replace ⟨1⟩ .keyPress own).state ∧
      ((p.replace ⟨1⟩ .keyPress own).state.events.find? ⟨1⟩).map
          (fun e => (e.routine.commands.order, e.routine.commands.next)) = some ([⟨2⟩], 3) ∧
      (p.replace ⟨1⟩ .keyPress none).answer = .ok .duplicate ∧
      (p.replace ⟨1⟩ .keyPress none).state = p := by
  intro p own
  have wf : p.WellFormed := wellFormed_empty.run keyed
  have known : p.events.contains ⟨1⟩ = true := by decide
  have free : ¬ p.Occupied ⟨1⟩ .keyPress own := by
    rw [← duplicate?_isSome_iff]
    decide
  have taken : p.Occupied ⟨1⟩ .keyPress none := by
    rw [← duplicate?_isSome_iff]
    decide
  obtain ⟨-, -, replaced⟩ := replace_in_place wf rfl known .keyPress own
  obtain ⟨duplicate, same, -⟩ := replace_in_place wf rfl known .keyPress none
  exact ⟨wf, rfl, known, (replaced free).2, by decide, duplicate.mpr taken, same taken⟩

end Program

end RobotProgram
