import RobotProgram.Proofs.Program.Invariant
import RobotProgram.Proofs.Projector.Projection

/-!
# Projecting over what is lit already

Whatever is lit before, a projection lights the events that the status names and, in the selected
event, the command that was started last, and puts out all others of these. What else is lit stays
lit, also for events and commands that are gone. So of projections in a row only the last one counts.

## Main definitions

* `Highlights.Projected`: what one projection makes of highlights.
* `Highlights.Same`: the same events and commands are lit.
* `Projector.projectAll`: projections in a row.
-/

namespace RobotProgram

namespace Highlights

/-- What projecting a status onto a program makes of highlights. -/
structure Projected (program : Program) (status : Status) (before after : Highlights) : Prop where
  events : ∀ place h event, program.entries[place]? = some (h, event) →
    (after.hasEvent h = true ↔ place ∈ status.entries.map Prod.fst)
  /-- In the selected event the command at the last number of its sequence is lit, and no other. -/
  commands : ∀ place h event, program.entries[place]? = some (h, event) →
    program.selected = some h → ∀ c, (after.hasCommand h c = true ↔
      ∃ places last command, status.get? place = some places ∧ places.getLast? = some last ∧
        event.routine.entries[last]? = some (c, command))
  /-- None is lit if the event is not running, has run nothing, or has no command at that number. -/
  dark : ∀ place h event, program.entries[place]? = some (h, event) → program.selected = some h →
    (∀ places ∈ status.get? place, ∀ last ∈ places.getLast?, event.routine.length ≤ last) →
    ∀ c, after.hasCommand h c = false
  others : ∀ h, program.selected ≠ some h → ∀ c, after.hasCommand h c = before.hasCommand h c
  gone : ∀ h, h ∉ program.entries.map Prod.fst → after.hasEvent h = before.hasEvent h

/-- The same events and commands are lit. -/
def Same (a b : Highlights) : Prop :=
  (∀ h, a.hasEvent h = b.hasEvent h) ∧ ∀ h c, a.hasCommand h c = b.hasCommand h c

/-- The same is lit of all that projecting onto a program leaves as it is. -/
def SameBeside (program : Program) (a b : Highlights) : Prop :=
  (∀ h, h ∉ program.entries.map Prod.fst → a.hasEvent h = b.hasEvent h) ∧
    ∀ h, program.selected ≠ some h → ∀ c, a.hasCommand h c = b.hasCommand h c

variable {program : Program} {status : Status} {a b l : Highlights}

theorem isSome_get?_iff {place : Nat} :
    (status.get? place).isSome = true ↔ place ∈ status.entries.map Prod.fst := by
  simp [Status.get?, List.lookup_isSome_iff]

section Place

variable {place : Nat} {h : Handle Event} {event : Event}

theorem project_of_getElem? (wf : program.WellFormed)
    (entry : program.entries[place]? = some (h, event)) (l : Highlights) (status : Status) :
    (l.project program status).hasEvent h = (status.get? place).isSome ∧
      ∀ c, (l.project program status).hasCommand h c =
        if some h = program.selected then decide (current? status place event = some c)
        else l.hasCommand h c := by
  have visited := projectFrom_of_getElem? status program.selected (l := l)
    wf.events.nodup_entries entry 0
  rwa [Nat.zero_add] at visited

/-- A number beyond the commands of an event shows none of them. -/
theorem current?_of_beyond (wf : event.routine.WellFormed)
    (beyond : ∀ places ∈ status.get? place, ∀ last ∈ places.getLast?, event.routine.length ≤ last)
    (c : Handle Command) : current? status place event ≠ some c := by
  intro shown
  obtain ⟨places, last, command, running, ends, found⟩ :=
    (current?_eq_some_iff wf.commands).mp shown
  obtain ⟨bound, -⟩ := List.getElem?_eq_some_iff.mp found
  have length : event.routine.entries.length = event.routine.length :=
    wf.commands.length_entries
  have := beyond places running last ends
  omega

end Place

theorem projected_project (wf : program.WellFormed) (l : Highlights) (status : Status) :
    Projected program status l (l.project program status) := by
  have routine {place : Nat} {h : Handle Event} {event : Event}
      (entry : program.entries[place]? = some (h, event)) : event.routine.WellFormed :=
    wf.routines (h, event) (List.mem_of_getElem? entry)
  refine ⟨?_, ?_, ?_, ?_, ?_⟩
  · intro place h event entry
    rw [(project_of_getElem? wf entry l status).1, isSome_get?_iff]
  · intro place h event entry selected c
    rw [(project_of_getElem? wf entry l status).2, if_pos selected.symm, decide_eq_true_iff,
      current?_eq_some_iff (routine entry).commands]
  · intro place h event entry selected beyond c
    rw [(project_of_getElem? wf entry l status).2, if_pos selected.symm, decide_eq_false_iff_not]
    exact current?_of_beyond (routine entry) beyond c
  · intro h other c
    by_cases mem : h ∈ program.entries.map Prod.fst
    · obtain ⟨place, event, entry⟩ := Roster.exists_place mem
      rw [(project_of_getElem? wf entry l status).2, if_neg fun same => other same.symm]
    · exact (projectFrom_of_notMem status program.selected 0 mem).2 c
  · intro h notMem
    exact (projectFrom_of_notMem status program.selected 0 notMem).1

namespace Projected

theorem sameBeside (projected : Projected program status b a) : SameBeside program a b :=
  ⟨projected.gone, projected.others⟩

/-- What a status says of the events, or else what was lit before, says all that is lit. -/
theorem same {a' b' : Highlights} (wf : program.WellFormed)
    (first : Projected program status b a) (second : Projected program status b' a')
    (beside : SameBeside program b b') : Same a a' := by
  constructor
  · intro h
    by_cases mem : h ∈ program.entries.map Prod.fst
    · obtain ⟨place, event, entry⟩ := Roster.exists_place mem
      rw [Bool.eq_iff_iff, first.events place _ event entry, second.events place _ event entry]
    · rw [first.gone h mem, second.gone h mem, beside.1 h mem]
  · intro h c
    by_cases selected : program.selected = some h
    · obtain ⟨event, found⟩ := wf.events.find?_some_of_mem_order (wf.selected h selected)
      obtain ⟨place, entry⟩ := List.getElem?_of_mem (wf.events.mem_entries_iff.mpr found)
      rw [Bool.eq_iff_iff, first.commands place h event entry selected,
        second.commands place h event entry selected]
    · rw [first.others h selected, second.others h selected, beside.2 h selected]

end Projected

end Highlights

namespace Projector

open Highlights

/-- Projects statuses onto a program one after the other. -/
def projectAll (p : Projector) (program : Program) (statuses : List Status) : Projector :=
  statuses.foldl (fun p status => (p.project program status).state) p

variable {program : Program}

theorem projectAll_concat (p : Projector) (earlier : List Status) (status : Status) :
    p.projectAll program (earlier ++ [status]) =
      ((p.projectAll program earlier).project program status).state := by
  simp [projectAll]

/-- Projections leave alone what each of them leaves alone. -/
theorem sameBeside_projectAll (wf : program.WellFormed) (p : Projector) (statuses : List Status) :
    SameBeside program (p.projectAll program statuses).highlights p.highlights := by
  induction statuses generalizing p with
  | nil => exact ⟨fun _ _ => rfl, fun _ _ _ => rfl⟩
  | cons status rest ih =>
    obtain ⟨gone, others⟩ := ih (p.project program status).state
    obtain ⟨gone', others'⟩ := (projected_project wf p.highlights status).sameBeside
    refine ⟨fun h notMem => ?_, fun h other c => ?_⟩
    · exact (gone h notMem).trans (gone' h notMem)
    · exact (others h other c).trans (others' h other c)

/--
Whatever was lit before, a projection makes of it what the status says, beside which everything stays
as it was; and it makes no difference which statuses were projected just before.
-/
theorem projected_highlights (program : Program) (wf : program.WellFormed) (p : Projector)
    (status : Status) :
    Projected program status p.highlights (p.project program status).state.highlights ∧
      ∀ earlier : List Status,
        Same (p.projectAll program (earlier ++ [status])).highlights
          (p.project program status).state.highlights := by
  have projected (q : Projector) :
      Projected program status q.highlights (q.project program status).state.highlights :=
    projected_project wf q.highlights status
  refine ⟨projected p, fun earlier => ?_⟩
  rw [projectAll_concat]
  exact (projected _).same wf (projected p) (sameBeside_projectAll wf p earlier)

/-- Three events, of which the second has three commands, the last one put in front of the others, and
is selected. -/
def staged : List Program.Edit :=
  [.add .start none [⟨"WaitCommandGUI", "WaitCommand", none⟩],
    .add .step none (.replicate 3 ⟨"SpeedCommandGUI", "SpeedCommand", none⟩), .add .tip none [],
    .inEvent ⟨2⟩ (.move ⟨3⟩ 0), .selectAt 1]

/-- Much is lit that is not there, and in the selected event two commands are. -/
def littered : Projector :=
  { Projector.new 20 with
    highlights :=
      ⟨[⟨1⟩, ⟨9⟩], [(⟨1⟩, ⟨7⟩), (⟨2⟩, ⟨1⟩), (⟨2⟩, ⟨2⟩), (⟨3⟩, ⟨1⟩), (⟨9⟩, ⟨1⟩)]⟩ }

theorem projected_littered :
    let program := Program.empty.run staged
    let status : Status := ⟨[(1, [2, 0]), (2, [5])]⟩
    let shown := (littered.project program status).state.highlights
    program.WellFormed ∧ Projected program status littered.highlights shown ∧
      Same (littered.projectAll program [⟨[(0, []), (1, [1])]⟩, ⟨[(1, [4])]⟩, status]).highlights
        shown ∧
      shown = ⟨[⟨9⟩, ⟨2⟩, ⟨3⟩], [(⟨1⟩, ⟨7⟩), (⟨3⟩, ⟨1⟩), (⟨9⟩, ⟨1⟩), (⟨2⟩, ⟨3⟩)]⟩ := by
  intro program status shown
  have wf : program.WellFormed := Program.wellFormed_empty.run staged
  obtain ⟨projected, last⟩ := projected_highlights program wf littered status
  exact ⟨wf, projected, last [⟨[(0, []), (1, [1])]⟩, ⟨[(1, [4])]⟩], by decide⟩

end Projector

end RobotProgram
