import RobotProgram.Projector
import RobotProgram.Proofs.Roster.Entries

/-!
# Projections

When a look at the ticker projects, what one projection does to each highlight, and what any number
of them over the same events have made of the highlights: each event is lit as the last projection
says, and its commands as the last one says that was made while the event was selected.

## Main definitions

* `Highlights.current?`: the command of an event that a status shows as started last.
* `Projection`: a status that was projected, and the event that was selected then.
* `Highlights.Reflects`: highlights are those that projections have made.
-/

namespace RobotProgram

/-! ## Looking at the ticker -/

/-- A look projects what is reported if the projector is running and ticks are due, else nothing. -/
theorem Projector.poll_cases {ι : Type} [StatusSource ι] (p : Projector) (program : Program)
    (interpreter : ι) :
    (p.running = false ∨ p.ticker.pending = 0) ∧ (p.poll program interpreter).answer = false ∧
        (p.poll program interpreter).state = (p, interpreter) ∨
      p.running = true ∧ p.ticker.pending ≠ 0 ∧ (p.poll program interpreter).answer = true ∧
        (p.poll program interpreter).state =
          (({ p with ticker := p.ticker.take.2 }.project program
              (StatusSource.report interpreter).1).state, (StatusSource.report interpreter).2) := by
  unfold poll
  split
  · rename_i still
    exact .inl ⟨.inl (by simpa using still), rfl, rfl⟩
  · rename_i moving
    have running : p.running = true := by simpa using moving
    dsimp only
    split
    -- handing out no ticks leaves none due, as before
    · rename_i due
      have none : p.ticker.pending = 0 := due
      have same : p.ticker.take.2 = p.ticker := by rw [Ticker.take, ← none]
      exact .inl ⟨.inr none, rfl, by rw [same]⟩
    · rename_i due
      exact .inr ⟨running, due, rfl, rfl⟩

namespace Highlights

variable (l : Highlights) (h k : Handle Event) (c : Option (Handle Command)) (d : Handle Command)

/-! ## Lighting and putting out -/

@[simp] theorem hasEvent_setEvent (on : Bool) :
    (l.setEvent h on).hasEvent k = if k = h then on else l.hasEvent k := by
  unfold setEvent hasEvent
  cases on with
  | true => by_cases hh : h ∈ l.events <;> by_cases hk : k = h <;> simp [hh, hk]
  | false => by_cases hk : k = h <;> simp [hk]

@[simp] theorem hasCommand_setEvent (on : Bool) :
    (l.setEvent h on).hasCommand k d = l.hasCommand k d := by
  unfold setEvent
  split
  · split <;> rfl
  · rfl

@[simp] theorem hasEvent_setCommand : (l.setCommand h c).hasEvent k = l.hasEvent k := rfl

@[simp] theorem hasCommand_setCommand :
    (l.setCommand h c).hasCommand k d = if k = h then decide (c = some d) else l.hasCommand k d := by
  unfold setCommand hasCommand
  cases c with
  | none => by_cases hk : k = h <;> simp [hk]
  | some c => by_cases hk : k = h <;> simp [hk, @eq_comm _ d c]

/-! ## One event -/

/-- The command of the event at a place that a status shows as started last. -/
def current? (status : Status) (place : Nat) (event : Event) : Option (Handle Command) :=
  (lastPlace? status place).bind event.routine.commands.handleAt?

/-- The command stands where the last number of the event's sequence says. -/
theorem current?_eq_some_iff {status : Status} {place : Nat} {event : Event}
    (wf : event.routine.commands.WellFormed) {d : Handle Command} :
    current? status place event = some d ↔
      ∃ places last command, status.get? place = some places ∧ places.getLast? = some last ∧
        event.routine.entries[last]? = some (d, command) := by
  simp only [current?, lastPlace?, Option.bind_eq_some_iff]
  constructor
  · rintro ⟨last, ⟨places, running, ends⟩, at_⟩
    obtain ⟨command, found⟩ := wf.find?_some_of_mem_order (List.mem_of_getElem? at_)
    exact ⟨places, last, command, running, ends, wf.getElem?_entries.mpr ⟨at_, found⟩⟩
  · rintro ⟨places, last, command, running, ends, entry⟩
    exact ⟨last, ⟨places, running, ends⟩, (wf.getElem?_entries.mp entry).1⟩

variable (status : Status) (selected : Option (Handle Event)) (place : Nat) (event : Event)

theorem hasEvent_projectEvent :
    (l.projectEvent status selected place h event).hasEvent k =
      if k = h then (status.get? place).isSome else l.hasEvent k := by
  unfold projectEvent
  dsimp only
  split <;> simp

theorem hasCommand_projectEvent :
    (l.projectEvent status selected place h event).hasCommand k d =
      if k = h ∧ some h = selected then decide (current? status place event = some d)
      else l.hasCommand k d := by
  unfold projectEvent
  dsimp only
  split
  · rename_i hs
    rw [hasCommand_setCommand, hasCommand_setEvent]
    simp only [hs, and_true]
    rfl
  · rename_i hs
    simp [hs]

/-! ## All events -/

section ProjectFrom

variable {l h k event} {entries : List (Handle Event × Event)}

theorem projectFrom_of_notMem (place : Nat) (notMem : k ∉ entries.map Prod.fst) :
    (projectFrom status selected place entries l).hasEvent k = l.hasEvent k ∧
      ∀ d, (projectFrom status selected place entries l).hasCommand k d = l.hasCommand k d := by
  induction entries generalizing place l with
  | nil => exact ⟨rfl, fun _ => rfl⟩
  | cons entry rest ih =>
    rw [List.map_cons, List.mem_cons, not_or] at notMem
    obtain ⟨event, commands⟩ :=
      ih (l := l.projectEvent status selected place entry.1 entry.2) (place + 1) notMem.2
    rw [projectFrom, event]
    refine ⟨by rw [hasEvent_projectEvent, if_neg notMem.1], fun d => ?_⟩
    rw [commands, hasCommand_projectEvent, if_neg fun both => notMem.1 both.1]

/-- Each event is visited once, so what its visit has done stays. -/
theorem projectFrom_of_getElem? (nodup : (entries.map Prod.fst).Nodup) {i : Nat}
    (at_ : entries[i]? = some (h, event)) (place : Nat) :
    (projectFrom status selected place entries l).hasEvent h =
        (status.get? (place + i)).isSome ∧
      ∀ d, (projectFrom status selected place entries l).hasCommand h d =
        if some h = selected then decide (current? status (place + i) event = some d)
        else l.hasCommand h d := by
  induction entries generalizing place l i with
  | nil => cases at_
  | cons entry rest ih =>
    rw [List.map_cons, List.nodup_cons] at nodup
    cases i with
    | zero =>
      obtain rfl : entry = (h, event) := Option.some.inj at_
      obtain ⟨lit, commands⟩ := projectFrom_of_notMem status selected
        (l := l.projectEvent status selected place h event) (place + 1) nodup.1
      rw [projectFrom, lit, hasEvent_projectEvent, if_pos rfl]
      refine ⟨rfl, fun d => ?_⟩
      rw [commands, hasCommand_projectEvent]
      simp
    | succ i =>
      have later : rest[i]? = some (h, event) := at_
      have other : h ≠ entry.1 := fun same =>
        nodup.1 (same ▸ List.mem_map_of_mem (f := Prod.fst) (List.mem_of_getElem? later))
      obtain ⟨lit, commands⟩ := ih nodup.2 later
        (l := l.projectEvent status selected place entry.1 entry.2) (place + 1)
      have shift : place + 1 + i = place + (i + 1) := by omega
      rw [projectFrom, lit, shift]
      refine ⟨rfl, fun d => ?_⟩
      rw [commands, hasCommand_projectEvent, shift]
      simp only [other, false_and, if_false]

end ProjectFrom

end Highlights

/-! ## Many projections -/

/-- A status that was projected, and the event that was selected then. -/
structure Projection where
  status : Status
  selected : Option (Handle Event)

namespace Highlights

/--
Highlights over some events, in order, are those that projections have made: an event is lit as the
last of them says, and its commands as the last one says that was made while it was selected.
-/
structure Reflects (entries : List (Handle Event × Event)) (shown : List Projection)
    (l : Highlights) : Prop where
  events : ∀ {place h event}, entries[place]? = some (h, event) →
    (l.hasEvent h = true ↔ ∃ last ∈ shown.getLast?, (last.status.get? place).isSome = true)
  commands : ∀ {place h event}, entries[place]? = some (h, event) → ∀ c,
    (l.hasCommand h c = true ↔
      ∃ last ∈ (shown.filter (·.selected = some h)).getLast?,
        current? last.status place event = some c)
  /-- Nothing is lit that is not there. -/
  known : ∀ h, (l.hasEvent h = true ∨ ∃ c, l.hasCommand h c = true) → h ∈ entries.map Prod.fst

variable {entries : List (Handle Event × Event)} {shown : List Projection} {l : Highlights}

theorem reflects_none (entries : List (Handle Event × Event)) : Reflects entries [] none where
  events _ := by simp [none, hasEvent]
  commands _ _ := by simp [none, hasCommand]
  known h := by simp [none, hasEvent, hasCommand]

theorem Reflects.project (reflects : Reflects entries shown l)
    (nodup : (entries.map Prod.fst).Nodup) (status : Status) (selected : Option (Handle Event)) :
    Reflects entries (shown ++ [⟨status, selected⟩])
      (projectFrom status selected 0 entries l) where
  events {place h event} at_ := by
    rw [(projectFrom_of_getElem? status selected nodup at_ 0).1]
    simp
  commands {place h event} at_ c := by
    rw [(projectFrom_of_getElem? status selected nodup at_ 0).2 c]
    by_cases hs : selected = some h
    · simp [hs]
    · rw [if_neg fun same => hs same.symm, reflects.commands at_ c]
      simp [hs]
  known h lit := by
    by_contra notMem
    obtain ⟨event, commands⟩ :=
      projectFrom_of_notMem status selected (l := l) 0 notMem
    simp only [event, commands] at lit
    exact notMem (reflects.known h lit)

/-- At most one command of an event is lit. -/
theorem Reflects.command_unique (reflects : Reflects entries shown l) {h : Handle Event}
    {c d : Handle Command} (hc : l.hasCommand h c = true) (hd : l.hasCommand h d = true) :
    c = d := by
  obtain ⟨place, event, at_⟩ := Roster.exists_place (reflects.known h (.inr ⟨c, hc⟩))
  obtain ⟨last, hlast, current⟩ := (reflects.commands at_ c).mp hc
  obtain ⟨last', hlast', current'⟩ := (reflects.commands at_ d).mp hd
  obtain rfl := Option.some.inj (hlast.symm.trans hlast')
  exact Option.some.inj (current.symm.trans current')

end Highlights

end RobotProgram
