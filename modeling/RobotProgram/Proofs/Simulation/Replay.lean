import Mathlib.Data.List.Induction
import RobotProgram.Simulation
import RobotProgram.Proofs.Editor.Lighting

/-!
# Simulated runs replay every snapshot once

However the ticks become due, a simulated run that comes to its end has projected every snapshot
exactly once and in order. What was shown at a tick is what its snapshot names and nothing else, and
what the run leaves behind is the program that it found, with an event selected.

## Main definitions

* `Simulation.Lights`: what is lit is what a snapshot names.
* `Simulation.tree`: the rows of a program in which that is lit.
* `Simulation.Finishes`: the looks at the clock are enough.
* `Simulation.Replaying`: the invariant of a replay.
* `Simulation.Replayed`: what has come of a run.
-/

namespace RobotProgram

/-! ## Snapshots -/

namespace Status

theorem lookup_insertEntry (event place : Nat) (commands : List Nat)
    (entries : List (Nat × List Nat)) :
    (insertEntry event commands entries).lookup place =
      if place = event then some commands else entries.lookup place := by
  induction entries with
  | nil => exact Roster.lookup_cons_eq_ite ..
  | cons entry rest ih =>
    obtain ⟨other, others⟩ := entry
    unfold insertEntry
    split
    · exact Roster.lookup_cons_eq_ite ..
    split
    · rename_i same
      simp only [Roster.lookup_cons_eq_ite, same]
      grind
    · simp only [Roster.lookup_cons_eq_ite, ih]
      grind

/-- Of several entries for one event the last counts. -/
theorem get?_ofEntries (entries : List (Nat × List Nat)) (place : Nat) :
    (ofEntries entries).get? place =
      (entries.filter (·.1 = place)).getLast?.map Prod.snd := by
  induction entries using List.reverseRecOn with
  | nil => rfl
  | append_singleton entries entry ih =>
    have inserted : (ofEntries (entries ++ [entry])).entries =
        insertEntry entry.1 entry.2 (ofEntries entries).entries := by
      simp [ofEntries, List.foldl_append]
    rw [get?, inserted, lookup_insertEntry, ← get?, ih]
    by_cases here : place = entry.1
    · simp [here]
    · simp [here, Ne.symm here]

end Status

namespace Snapshot

/-- Whether the event at a place is among the running ones. -/
def runs (s : Snapshot) (place : Nat) : Bool := s.running.any (·.event = place)

/-- The last number in the sequence of the event at a place; of several the last sequence counts. -/
def lastNumber? (s : Snapshot) (place : Nat) : Option Nat :=
  (s.running.filter (·.event = place)).getLast?.bind (·.commands.getLast?)

variable (s : Snapshot) (place : Nat)

theorem get?_status : s.status.get? place =
    (s.running.filter (·.event = place)).getLast?.map (·.commands) := by
  rw [status, Status.get?_ofEntries, List.filter_map, List.getLast?_map, Option.map_map]
  rfl

theorem isSome_get?_status : (s.status.get? place).isSome = s.runs place := by
  rw [get?_status, Option.isSome_map, Bool.eq_iff_iff, List.getLast?_isSome, runs]
  simp

theorem lastPlace?_status : Highlights.lastPlace? s.status place = s.lastNumber? place := by
  rw [Highlights.lastPlace?, get?_status, Option.bind_map]
  rfl

end Snapshot

namespace Simulation

/-! ## What is shown -/

/--
What is lit is what a snapshot names: its events, and in the selected event the command at the last
number of its sequence, if there is one.
-/
structure Lights (p : Program) (s : Snapshot) (l : Highlights) : Prop where
  events : ∀ h, l.hasEvent h = true ↔
    ∃ place event, p.entries[place]? = some (h, event) ∧ s.runs place = true
  commands : ∀ h c, l.hasCommand h c = true ↔
    p.selected = some h ∧ ∃ place event number command, p.entries[place]? = some (h, event) ∧
      s.lastNumber? place = some number ∧ event.routine.entries[number]? = some (c, command)

/-- The rows of a program in which is lit what a snapshot names. -/
def tree (display : DisplaySettings) (p : Program) (s : Snapshot) : List String :=
  if p.length = 0 then ["(empty program)"]
  else
    p.entries.zipIdx.flatMap fun ((h, event), place) =>
      Listing.eventRow display (s.runs place) (some h = p.selected) place event ::
        event.routine.entries.zipIdx.map fun ((_, command), i) =>
          Listing.commandRow display (some h = p.selected ∧ s.lastNumber? place = some i) i command

section Shown

variable {p : Program} {s : Snapshot} {shown : List Projection} {l : Highlights}
  (same : ∀ q ∈ shown, q.selected = p.selected)
  (reflects : Highlights.Reflects p.entries (shown ++ [⟨s.status, p.selected⟩]) l)
include reflects

theorem hasEvent_of_reflects {place : Nat} {h : Handle Event} {event : Event}
    (at_ : p.entries[place]? = some (h, event)) : l.hasEvent h = true ↔ s.runs place = true := by
  rw [reflects.events at_]
  simp [s.isSome_get?_status]

include same

/-- The event was selected at all projections or at none, so only the last of them shows. -/
theorem hasCommand_of_reflects {place : Nat} {h : Handle Event} {event : Event}
    (at_ : p.entries[place]? = some (h, event)) (wf : event.routine.commands.WellFormed)
    (c : Handle Command) :
    l.hasCommand h c = true ↔ p.selected = some h ∧ ∃ number command,
      s.lastNumber? place = some number ∧ event.routine.entries[number]? = some (c, command) := by
  rw [reflects.commands at_ c]
  by_cases selected : p.selected = some h
  · simp only [List.filter_append, List.filter_cons, List.filter_nil, selected, decide_true,
      if_true, List.getLast?_append, List.getLast?_singleton, Option.some_or, Option.mem_def,
      Option.some.injEq, exists_eq_left', true_and, Highlights.current?_eq_some_iff wf,
      ← s.lastPlace?_status, Highlights.lastPlace?, Option.bind_eq_some_iff]
    grind
  · have never : ∀ q ∈ shown, q.selected ≠ some h := fun q mem => same q mem ▸ selected
    have nothing : shown.filter (·.selected = some h) = [] := by simpa using never
    simp [nothing, selected]

theorem lights_of_reflects (wf : p.WellFormed) : Lights p s l where
  events h := by
    constructor
    · intro lit
      obtain ⟨place, event, at_⟩ := Roster.exists_place (reflects.known h (.inl lit))
      exact ⟨place, event, at_, (hasEvent_of_reflects reflects at_).mp lit⟩
    · rintro ⟨place, event, at_, runs⟩
      exact (hasEvent_of_reflects reflects at_).mpr runs
  commands h c := by
    constructor
    · intro lit
      obtain ⟨place, event, at_⟩ := Roster.exists_place (reflects.known h (.inr ⟨c, lit⟩))
      have routine := (wf.routines (h, event) (List.mem_of_getElem? at_)).commands
      obtain ⟨selected, number, command, last, entry⟩ :=
        (hasCommand_of_reflects same reflects at_ routine c).mp lit
      exact ⟨selected, place, event, number, command, at_, last, entry⟩
    · rintro ⟨selected, place, event, number, command, at_, last, entry⟩
      have routine := (wf.routines (h, event) (List.mem_of_getElem? at_)).commands
      exact (hasCommand_of_reflects same reflects at_ routine c).mpr
        ⟨selected, number, command, last, entry⟩

/-- The printed tree marks what the snapshot names. -/
theorem rows_of_reflects (wf : p.WellFormed) (display : DisplaySettings) :
    Listing.rows p l display = tree display p s := by
  rw [Listing.rows_eq, tree]
  split
  · rfl
  refine List.flatMap_congr fun ⟨⟨h, event⟩, place⟩ mem => ?_
  have at_ : p.entries[place]? = some (h, event) := List.mem_zipIdx_iff_getElem?.mp mem
  have routine := (wf.routines (h, event) (List.mem_of_getElem? at_)).commands
  have lit : l.hasEvent h = s.runs place :=
    Bool.eq_iff_iff.mpr (hasEvent_of_reflects reflects at_)
  simp only [Listing.eventRows_eq, lit]
  congr 1
  refine List.map_congr_left fun ⟨⟨c, command⟩, i⟩ mem => ?_
  have entry : event.routine.entries[i]? = some (c, command) := List.mem_zipIdx_iff_getElem?.mp mem
  have last : l.hasCommand h c = decide (some h = p.selected ∧ s.lastNumber? place = some i) := by
    rw [Bool.eq_iff_iff, hasCommand_of_reflects same reflects at_ routine, decide_eq_true_iff,
      eq_comm]
    refine and_congr_right fun _ => ⟨?_, fun last => ⟨i, command, last, entry⟩⟩
    rintro ⟨number, _, last, again⟩
    rw [last, routine.place_unique again entry]
  rw [last]

end Shown

/-! ## Looks at the clock -/

/-- The number and the view of a tick that is put out. -/
@[simp] def tick? : Output → Option (Nat × View)
  | .tick number view => some (number, view)
  | _ => none

/-- The ticks that are put out, in order. -/
def ticks (outputs : List Output) : List (Nat × View) := outputs.filterMap tick?

@[simp] theorem ticks_nil : ticks [] = [] := rfl

@[simp] theorem ticks_append (xs ys : List Output) : ticks (xs ++ ys) = ticks xs ++ ticks ys :=
  List.filterMap_append

@[simp] theorem ticks_cons (x : Output) (xs : List Output) :
    ticks (x :: xs) = (tick? x).toList ++ ticks xs := by
  cases x <;> rfl

@[simp] theorem ticks_notices (notices : List Notice) : ticks (notices.map .notice) = [] := by
  simp [ticks]

/-- A tick shows the program as a numbered snapshot names it. -/
structure Ticked (display : DisplaySettings) (p : Program) (s : Snapshot × Nat)
    (tick : Nat × View) : Prop where
  number : tick.1 = s.2
  program : tick.2.program = p
  lights : Lights p s.1 tick.2.highlights
  tree : tick.2.render = Listing.joinRows (tree display p s.1)

/-- An editor in the middle of a replay: some snapshots were projected, the rest are to come. -/
structure Replaying (p : Program) (seen rest : List Snapshot) (e : Editor Playback) : Prop where
  program : e.program = p
  running : e.projector.running = true
  ticking : e.projector.ticker.isRunning = true
  statuses : e.interpreter.statuses = (seen ++ rest).map Snapshot.status
  asked : e.interpreter.asked = seen.length
  ticks : e.projector.ticks = seen.length
  reflects : Highlights.Reflects p.entries (seen.map fun s => ⟨s.status, p.selected⟩)
    e.projector.highlights

namespace Replaying

variable {p : Program} {seen rest : List Snapshot} {s : Snapshot} {e : Editor Playback}

theorem isFinished_iff (replaying : Replaying p seen rest e) :
    e.interpreter.isFinished = true ↔ rest = [] := by
  rw [← List.length_eq_zero_iff]
  simp only [Playback.isFinished, Playback.length, replaying.statuses, replaying.asked,
    List.length_map, List.length_append, decide_eq_true_iff]
  omega

theorem fire (replaying : Replaying p seen rest e) (due : Nat) :
    Replaying p seen rest (e.fire due) :=
  { replaying with ticking := (Ticker.isRunning_fire _ due).trans replaying.ticking }

theorem pending_fire (replaying : Replaying p seen rest e) (due : Nat) :
    (e.fire due).projector.ticker.pending = e.projector.ticker.pending + due := by
  simp [Editor.fire, Projector.fire, replaying.ticking]

/-- A look at which ticks are due projects the next snapshot. -/
theorem pump (wf : p.WellFormed) (replaying : Replaying p seen (s :: rest) e)
    (due : e.projector.ticker.pending ≠ 0) :
    e.pump.answer = true ∧ Replaying p (seen ++ [s]) rest e.pump.state ∧
      e.pump.state.projector.ticker.pending = 0 := by
  rcases e.pump_cases with ⟨still | idle, -⟩ | ⟨-, -, answer, state⟩
  · rw [replaying.running] at still
    cases still
  · exact absurd idle due
  have report : (StatusSource.report e.interpreter).1 = s.status := by
    simp [StatusSource.report, replaying.statuses, replaying.asked]
  rw [report] at state
  refine ⟨answer, ?_, by rw [state]; rfl⟩
  rw [state]
  refine ⟨replaying.program, replaying.running, replaying.ticking, ?_, ?_, ?_, ?_⟩
  · simp [StatusSource.report, replaying.statuses]
  · simp [StatusSource.report, replaying.asked]
  · simp [Projector.project, replaying.ticks]
  · have projected := replaying.reflects.project wf.events.nodup_entries s.status p.selected
    simpa [Projector.project, Highlights.project, replaying.program] using projected

/-- What is shown after a projection. -/
theorem ticked (wf : p.WellFormed) (replaying : Replaying p (seen ++ [s]) rest e)
    (display : DisplaySettings) :
    Ticked display p (s, seen.length + 1) (e.interpreter.polled, e.view display) := by
  have same : ∀ q ∈ seen.map fun s => (⟨s.status, p.selected⟩ : Projection),
      q.selected = p.selected := by simp
  have reflects := replaying.reflects
  rw [List.map_append, List.map_singleton] at reflects
  refine ⟨?_, replaying.program, ?_, ?_⟩
  · simp [Playback.polled, Playback.length, replaying.asked, replaying.statuses]
  · exact lights_of_reflects same reflects wf
  · have rows := rows_of_reflects same reflects wf display
    simp only [View.render, Listing.render, Editor.view, replaying.program, rows]

/-- A look at which nothing is due changes nothing. -/
theorem look_of_idle (replaying : Replaying p seen rest e) (display : DisplaySettings)
    (idle : e.projector.ticker.pending = 0) :
    Simulation.ticks (look display e 0).1 = [] ∧ Replaying p seen rest (look display e 0).2 ∧
      (look display e 0).2.projector.ticker.pending = 0 := by
  have pending : (e.fire 0).projector.ticker.pending = 0 := by
    rw [replaying.pending_fire, idle]
  rcases (e.fire 0).pump_cases with ⟨-, answer, state⟩ | ⟨-, due, -⟩
  · have same : (look display e 0).2 = e.fire 0 := state
    rw [same]
    exact ⟨by simp [look, answer], replaying.fire 0, pending⟩
  · exact absurd pending due

/-- A look at which ticks are due projects the next snapshot and shows it. -/
theorem look_of_due (wf : p.WellFormed) (replaying : Replaying p seen (s :: rest) e)
    (display : DisplaySettings) {due : Nat} (positive : 0 < due) :
    (∃ tick, Simulation.ticks (look display e due).1 = [tick] ∧
        Ticked display p (s, seen.length + 1) tick) ∧
      Replaying p (seen ++ [s]) rest (look display e due).2 ∧
      (look display e due).2.projector.ticker.pending = 0 := by
  have pending : (e.fire due).projector.ticker.pending ≠ 0 := by
    rw [replaying.pending_fire]
    omega
  obtain ⟨answer, pumped, idle⟩ := (replaying.fire due).pump wf pending
  refine ⟨⟨_, ?_, pumped.ticked wf display⟩, pumped, idle⟩
  simp [look, answer]

/--
Looks at the clock project the snapshots that are still to come, in order and one at each look at
which ticks are due, as long as there are any.
-/
theorem replay (wf : p.WellFormed) (display : DisplaySettings) (dues : List Nat)
    (replaying : Replaying p seen rest e) (idle : e.projector.ticker.pending = 0) :
    ∃ played left, rest = played ++ left ∧
      played.length = min rest.length (dues.countP (0 < ·)) ∧
      Replaying p (seen ++ played) left (replay display dues e).2 ∧
      List.Forall₂ (Ticked display p) (played.zipIdx (seen.length + 1))
        (Simulation.ticks (replay display dues e).1) := by
  -- along the looks one snapshot after the other goes over to those that were seen
  induction dues generalizing seen rest e with
  | nil => exact ⟨[], rest, rfl, by simp, by simpa using replaying, .nil⟩
  | cons due dues ih =>
    cases rest with
    | nil =>
      have finished := replaying.isFinished_iff.mpr rfl
      rw [replay_of_isFinished display _ finished]
      exact ⟨[], [], rfl, by simp, by simpa using replaying, .nil⟩
    | cons s rest =>
      have going : ¬ e.interpreter.isFinished = true := by simp [replaying.isFinished_iff]
      rw [Simulation.replay, if_neg going]
      rcases Nat.eq_zero_or_pos due with rfl | positive
      · obtain ⟨silent, next, idle'⟩ := replaying.look_of_idle display idle
        obtain ⟨played, left, split, count, last, shown⟩ := ih next idle'
        refine ⟨played, left, split, by simpa using count, last, ?_⟩
        simpa [silent] using shown
      · obtain ⟨⟨tick, one, ticked⟩, next, idle'⟩ := replaying.look_of_due wf display positive
        obtain ⟨played, left, split, count, last, shown⟩ := ih next idle'
        refine ⟨s :: played, left, by rw [split, List.cons_append], ?_, ?_, ?_⟩
        · simp [positive, count]
        · simpa using last
        · simp only [ticks_append, one, List.zipIdx_cons, List.singleton_append]
          exact .cons ticked (by simpa using shown)

end Replaying

/-! ## Whole runs -/

/-- The program with the event at a place selected, if a place is given. -/
def chosen (place : Option Nat) (p : Program) : Program :=
  match place with
  | none => p
  | some place => { p with selected := p.events.handleAt? place }

/-- The editor of a program that was read, with the snapshots of the settings before it. -/
def loaded (settings : Settings) (records : List EventRecord) : Editor Playback :=
  ((Editor.new settings.engine settings.simulation.playback).load records).state

/-- The editor in which a replay begins. -/
def entered (settings : Settings) (e : Editor Playback) : Editor Playback :=
  ((select settings.simulation.selectEvent e).state.setScriptMode true).state

/-- The looks at the clock are enough: at the end of them all snapshots are through. -/
def Finishes (settings : Settings) (dues : List Nat) (e : Editor Playback) : Prop :=
  (replay settings.display dues (entered settings e)).2.interpreter.isFinished = true

/-- What comes of a run: what it puts out, and the editor that it leaves. -/
structure Replayed (settings : Settings) (e : Editor Playback) (outputs : List Output)
    (e' : Editor Playback) : Prop where
  /-- There is a tick for each snapshot, in order, at which the program shows what it names. -/
  ticks : List.Forall₂
    (Ticked settings.display ((chosen settings.simulation.selectEvent e.program).setLock true))
    (settings.simulation.snapshots.zipIdx 1) (ticks outputs)
  projections : e'.projector.ticks = settings.simulation.snapshots.length
  asked : e'.interpreter.asked = settings.simulation.snapshots.length
  scriptMode : e'.scriptMode = false
  unlocked : e'.program.locked = false
  routines : ∀ entry ∈ e'.program.entries, entry.2.routine.locked = false
  dark : e'.projector.highlights = .none
  program : e'.program = chosen settings.simulation.selectEvent e.program
  save : e'.save = e.save

/-- An editor out of script mode, before which lie the snapshots of the settings. -/
structure Ready (settings : Settings) (e : Editor Playback) : Prop where
  wf : e.program.WellFormed
  coherent : e.Coherent
  off : e.scriptMode = false
  interpreter : e.interpreter = settings.simulation.playback

variable {settings : Settings} {dues : List Nat} {e : Editor Playback}

theorem ready_loaded (settings : Settings) (records : List EventRecord) :
    Ready settings (loaded settings records) := by
  have start := Editor.coherent_new settings.engine settings.simulation.playback
  obtain ⟨wf, coherent⟩ := start.apply Program.wellFormed_empty (.load records)
  have load : (loaded settings records).scriptMode = false ∧
      (loaded settings records).interpreter = settings.simulation.playback := by
    unfold loaded Editor.load Editor.refreshedUnlessFault
    split
    · exact ⟨rfl, rfl⟩
    · split <;> exact ⟨rfl, rfl⟩
  exact ⟨wf, coherent, load.1, load.2⟩

/-- The place is one of the program, so there is an event to select. -/
theorem select_of_within (wf : e.program.WellFormed) (shown : e.displayed = e.program.selected)
    {place : Option Nat} (within : ∀ i ∈ place, i < e.program.length) :
    (select place e).answer = .ok () ∧
      (select place e).state = { e with
        program := chosen place e.program
        displayed := (chosen place e.program).selected } := by
  cases place with
  | none => exact ⟨rfl, by simp [select, chosen, ← shown]⟩
  | some place =>
    have bound : place < e.program.events.entries.length := by
      rw [wf.events.length_entries]
      exact within place rfl
    obtain ⟨⟨h, event⟩, at_⟩ : ∃ entry, e.program.events.entries[place]? = some entry :=
      ⟨_, List.getElem?_eq_getElem bound⟩
    obtain ⟨handle, found⟩ := wf.events.getElem?_entries.mp at_
    have known : e.program.events.contains h = true := by simp [Roster.contains, found]
    have got : e.program.getAt? place = some (h, event) := by
      simp [Program.getAt?, handle, found]
    have selects : e.program.select h = ⟨.ok (), { e.program with selected := some h }, []⟩ := by
      simp [Program.select, known]
    simp [select, got, Editor.selectEvent, Editor.refreshedUnlessFault, selects,
      Editor.refreshed, Editor.refresh, chosen, handle]

theorem wellFormed_chosen {p : Program} (wf : p.WellFormed) (place : Option Nat) :
    (chosen place p).WellFormed := by
  cases place with
  | none => exact wf
  | some place => exact ⟨wf.events, wf.routines, fun h at_ => List.mem_of_getElem? at_⟩

theorem setLock_chosen (place : Option Nat) (p : Program) (on : Bool) :
    (chosen place p).setLock on = chosen place (p.setLock on) := by
  cases place <;> rfl

theorem save_chosen (place : Option Nat) (p : Program) : (chosen place p).save = p.save := by
  cases place <;> rfl

namespace Ready

variable (ready : Ready settings e)
include ready

/-- With script mode everything starts over: nothing is lit, due or counted. -/
theorem entered (within : ∀ i ∈ settings.simulation.selectEvent, i < e.program.length) :
    Replaying ((chosen settings.simulation.selectEvent e.program).setLock true) []
        settings.simulation.snapshots (entered settings e) ∧
      (entered settings e).projector.ticker.pending = 0 := by
  have still : e.projector.running = false := ready.coherent.projecting.trans ready.off
  have dark := ready.coherent.dark ready.off
  have selected := (select_of_within ready.wf ready.coherent.displayed within).2
  simp only [Simulation.entered, selected, Editor.setScriptMode, Projector.start, still]
  refine ⟨⟨rfl, rfl, rfl, ?_, ?_, rfl, ?_⟩, rfl⟩
  · simp [ready.interpreter, SimulationSettings.playback]
  · simp [ready.interpreter, SimulationSettings.playback]
  · simpa [dark] using Highlights.reflects_none _

/-- Leaving script mode undoes the lock that entering it has set. -/
theorem unlock_lock (place : Option Nat) :
    ((chosen place e.program).setLock true).setLock false = chosen place e.program := by
  have unlocked := Program.setLock_eq_self ready.wf ready.coherent.locksAgree
  rw [ready.coherent.locked, ready.off] at unlocked
  rw [Program.setLock_setLock, setLock_chosen, unlocked]

variable (within : ∀ i ∈ settings.simulation.selectEvent, i < e.program.length)
include within

/-- All snapshots come to their turn just if ticks are due at as many looks. -/
theorem finishes_iff :
    Finishes settings dues e ↔
      settings.simulation.snapshots.length ≤ dues.countP (0 < ·) := by
  obtain ⟨replaying, idle⟩ := ready.entered within
  obtain ⟨played, left, split, count, last, -⟩ :=
    replaying.replay ((wellFormed_chosen ready.wf _).setLock true) settings.display dues idle
  have parts := congrArg List.length split
  rw [Finishes, last.isFinished_iff, ← List.length_eq_zero_iff]
  rw [List.length_append] at parts
  omega

/-- One tick at each look, as it is in a session, is enough. -/
theorem finishes_replicate :
    Finishes settings (List.replicate settings.simulation.snapshots.length 1) e := by
  simp [ready.finishes_iff within, List.countP_replicate]

theorem replayed (nonempty : settings.simulation.snapshots ≠ [])
    (finishes : Finishes settings dues e) :
    ∃ outputs e', run settings dues e = (outputs, .ok e') ∧ Replayed settings e outputs e' := by
  obtain ⟨replaying, idle⟩ := ready.entered within
  obtain ⟨played, left, split, -, last, shown⟩ :=
    replaying.replay ((wellFormed_chosen ready.wf _).setLock true) settings.display dues idle
  obtain rfl := last.isFinished_iff.mp finishes
  obtain rfl : settings.simulation.snapshots = played := by simpa using split
  have answer := (select_of_within ready.wf ready.coherent.displayed within).1
  have length : e.interpreter.length ≠ 0 := by
    simpa [ready.interpreter, SimulationSettings.playback, Playback.length] using nonempty
  rw [run, if_neg length]
  dsimp only
  rw [answer]
  -- leaving script mode puts everything out, whatever is lit
  refine ⟨_, _, if_pos rfl, ?_⟩
  have program := ready.unlock_lock settings.simulation.selectEvent
  rw [← last.program] at program
  exact
    { ticks := by simpa [Simulation.entered] using shown
      projections := last.ticks
      asked := last.asked
      scriptMode := rfl
      unlocked := rfl
      routines := Program.locksAgree_setLock _ false
      dark := rfl
      program := program
      save := (congrArg Program.save program).trans (save_chosen _ _) }

end Ready

/--
A simulated run of any program that was read, over any snapshots and with any event selected before
it, projects each snapshot exactly once and in order if it comes to its end at all, however the
ticks become due. At each tick what its snapshot names is lit and nothing else. The run succeeds,
and leaves the program as it was, unlocked and with nothing lit.
-/
theorem run_loaded (settings : Settings) (records : List EventRecord) (dues : List Nat)
    (nonempty : settings.simulation.snapshots ≠ [])
    (within : ∀ i ∈ settings.simulation.selectEvent, i < (loaded settings records).program.length)
    (finishes : Finishes settings dues (loaded settings records)) :
    ∃ outputs e, run settings dues (loaded settings records) = (outputs, .ok e) ∧
      Replayed settings (loaded settings records) outputs e :=
  (ready_loaded settings records).replayed within nonempty finishes

/-- Of the first event two sequences are given, and at the second tick only one that is empty. -/
def rehearsal : Settings where
  simulation :=
    { selectEvent := some 0
      snapshots := [⟨[⟨0, [0]⟩, ⟨1, [0]⟩, ⟨0, [0, 7, 1]⟩]⟩, ⟨[⟨0, []⟩, ⟨5, [1]⟩]⟩] }

/-- Two events, the first of them with two commands. -/
def rehearsed : List EventRecord :=
  [⟨"KeypressEventGUI", "KeypressEvent", none,
    [⟨"WaitCommandGUI", "WaitCommand", none⟩, ⟨"BuzzerCommandGUI", "BuzzerCommand", none⟩]⟩,
    ⟨"TipEventGUI", "TipEvent", none, []⟩]

theorem run_rehearsed :
    (loaded rehearsal rehearsed).program.commandCount = 2 ∧
      (∃ outputs e, run rehearsal [0, 1, 0, 3] (loaded rehearsal rehearsed) = (outputs, .ok e) ∧
        Replayed rehearsal (loaded rehearsal rehearsed) outputs e) ∧
      (ticks (run rehearsal [0, 1, 0, 3] (loaded rehearsal rehearsed)).1).map (·.2.highlights) =
        [⟨[⟨1⟩, ⟨2⟩], [(⟨1⟩, ⟨2⟩)]⟩, ⟨[⟨1⟩], []⟩] := by
  have finishes : Finishes rehearsal [0, 1, 0, 3] (loaded rehearsal rehearsed) := by
    unfold Finishes
    decide
  exact ⟨by decide, run_loaded rehearsal rehearsed [0, 1, 0, 3] (by decide) (by decide) finishes,
    by decide⟩

end Simulation

end RobotProgram
