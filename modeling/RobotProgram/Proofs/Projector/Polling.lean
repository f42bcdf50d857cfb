import Mathlib.Data.List.DropRight
import RobotProgram.Proofs.Projector.Projection

/-!
# Looking at the ticker, over whole runs

A projector is started and stopped, its ticker is fired, it looks at the ticker, and statuses are
handed to it, while the program before it is edited and the interpreter goes on. When a look
projects, what the interpreter is asked, what is lit and how many projections are counted all follow
from what has happened so far.

## Main definitions

* `Overheard`: an interpreter with the statuses that it has reported.
* `Scene`, `Scene.Step`: a projector with the program and the interpreter before it, and what can
  happen.
* `Scene.Moment`, `Scene.history`: the steps of a run with the scenes in which they were taken.
* `Scene.Lawful`: what a run has to do with its history.
-/

namespace RobotProgram

/-- An interpreter, and the statuses that it has reported when it was asked. -/
structure Overheard (ι : Type) where
  source : ι
  reported : List Status

instance {ι : Type} [StatusSource ι] : StatusSource (Overheard ι) where
  report o :=
    let (status, source) := StatusSource.report o.source
    (status, ⟨source, o.reported ++ [status]⟩)

/-- A projector, and the program and the interpreter before it. -/
structure Scene (ι : Type) where
  projector : Projector
  program : Program
  interpreter : Overheard ι

namespace Scene

variable {ι : Type}

/-- A new projector before a program and an interpreter that was not asked yet. -/
def new (interval : Nat) (program : Program) (interpreter : ι) : Scene ι :=
  ⟨.new interval, program, ⟨interpreter, []⟩⟩

/-- What is done with a projector, and what happens before it. -/
inductive Step (ι : Type) where
  | start
  | stop
  /-- One tick becomes due. -/
  | fire
  | poll
  | project (status : Status)
  | edit (edit : Program.Edit)
  /-- The interpreter changes. -/
  | interpreter (change : ι → ι)

/-! ## Runs -/

section Runs

variable [StatusSource ι] (s : Scene ι)

/-- One look at the ticker. -/
def poll : Outcome (Scene ι) Bool :=
  (s.projector.poll s.program s.interpreter).lift fun (projector, interpreter) =>
    { s with projector, interpreter }

def apply : Step ι → Scene ι
  | .start => { s with projector := s.projector.start.state }
  | .stop => { s with projector := s.projector.stop.state }
  | .fire => { s with projector := s.projector.fire 1 }
  | .poll => s.poll.state
  | .project status => { s with projector := (s.projector.project s.program status).state }
  | .edit edit => { s with program := (s.program.apply edit).state }
  | .interpreter change =>
    { s with interpreter := { s.interpreter with source := change s.interpreter.source } }

def run (steps : List (Step ι)) : Scene ι := steps.foldl apply s

@[simp] theorem run_concat (steps : List (Step ι)) (step : Step ι) :
    s.run (steps ++ [step]) = (s.run steps).apply step := by
  simp [run]

/-- A look projects if the projector is running and ticks are due, else it changes nothing. -/
theorem poll_cases :
    (s.projector.running = false ∨ s.projector.ticker.pending = 0) ∧ s.poll.answer = false ∧
        s.poll.state = s ∨
      s.projector.running = true ∧ s.projector.ticker.pending ≠ 0 ∧ s.poll.answer = true ∧
        s.poll.state = { s with
          projector := ({ s.projector with ticker := s.projector.ticker.take.2 }.project s.program
            (StatusSource.report s.interpreter).1).state
          interpreter := (StatusSource.report s.interpreter).2 } := by
  rcases s.projector.poll_cases s.program s.interpreter with
    ⟨still, answer, state⟩ | ⟨running, due, answer, state⟩
  · exact .inl ⟨still, answer, by rw [poll, Outcome.state_lift, state]⟩
  · exact .inr ⟨running, due, answer, by rw [poll, Outcome.state_lift, state]⟩

theorem poll_answer_iff :
    s.poll.answer = true ↔ s.projector.running = true ∧ s.projector.ticker.pending ≠ 0 := by
  rcases s.poll_cases with ⟨still, answer, -⟩ | ⟨running, due, answer, -⟩
  · grind
  · simp [running, due, answer]

end Runs

/-! ## Histories -/

/-- A step, and the scene in which it was taken. -/
structure Moment (ι : Type) where
  scene : Scene ι
  step : Step ι

namespace Moment

/-- A start of a projector that was standing still. -/
def begins : Moment ι → Bool
  | ⟨s, .start⟩ => !s.projector.running
  | _ => false

def fires : Moment ι → Bool
  | ⟨_, .fire⟩ => true
  | _ => false

def stops : Moment ι → Bool
  | ⟨_, .stop⟩ => true
  | _ => false

variable [StatusSource ι]

/-- A look that was answered by a projection. -/
def looks : Moment ι → Bool
  | ⟨s, .poll⟩ => s.poll.answer
  | _ => false

/-- What the interpreter reports to a look that projects. -/
def asked? (m : Moment ι) : Option Status :=
  if m.looks then some (StatusSource.report m.scene.interpreter.source).1 else none

/-- The status that is projected, by a look or directly. -/
def projected? : Moment ι → Option Status
  | ⟨_, .project status⟩ => some status
  | m => m.asked?

/-- What is lit afterwards: nothing after a stop, else what a projection makes of it. -/
def light (l : Highlights) : Moment ι → Highlights
  | ⟨_, .stop⟩ => .none
  | m => m.projected?.elim l (l.project m.scene.program)

end Moment

/-- What has happened since the last moment of some kind, or all if there was none. -/
def since (kind : Moment ι → Bool) (past : List (Moment ι)) : List (Moment ι) :=
  past.rtakeWhile (!kind ·)

@[simp] theorem since_concat (kind : Moment ι → Bool) (past : List (Moment ι)) (m : Moment ι) :
    since kind (past ++ [m]) = if kind m then [] else since kind past ++ [m] := by
  simp [since, List.rtakeWhile_concat]
  grind

/-- The steps since the last moment of some kind. -/
def stepsSince (kind : Moment ι → Bool) (past : List (Moment ι)) : List (Step ι) :=
  (since kind past).map Moment.step

theorem stepsSince_concat (kind : Moment ι → Bool) (past : List (Moment ι)) (m : Moment ι) :
    stepsSince kind (past ++ [m]) =
      if kind m then [] else stepsSince kind past ++ [m.step] := by
  unfold stepsSince
  rw [since_concat]
  split <;> simp

section History

variable [StatusSource ι]

/-- The moments of a run. -/
def history (s : Scene ι) : List (Step ι) → List (Moment ι)
  | [] => []
  | step :: rest => ⟨s, step⟩ :: (s.apply step).history rest

@[simp] theorem history_concat (s : Scene ι) (steps : List (Step ι)) (step : Step ι) :
    s.history (steps ++ [step]) = s.history steps ++ [⟨s.run steps, step⟩] := by
  induction steps generalizing s with
  | nil => rfl
  | cons first steps ih => simpa [history, run] using ih (s.apply first)

/-- Whether a tick has become due that no start and no projection has done away with. -/
def Due (past : List (Moment ι)) : Prop :=
  ∃ m ∈ since (fun m => m.begins || m.looks) past, m.fires = true

theorem due_concat (past : List (Moment ι)) (m : Moment ι) :
    Due (past ++ [m]) ↔
      m.begins = false ∧ m.looks = false ∧ (Due past ∨ m.fires = true) := by
  unfold Due
  rw [since_concat]
  grind

/-- How many projections there were since the projector was last set going. -/
def count (past : List (Moment ι)) : Nat :=
  (since Moment.begins past).countP (·.projected?.isSome)

theorem count_concat (past : List (Moment ι)) (m : Moment ι) :
    count (past ++ [m]) =
      if m.begins then 0 else count past + if m.projected?.isSome then 1 else 0 := by
  unfold count
  rw [since_concat]
  split <;> simp [List.countP_append]

end History

/-! ## The invariant -/

variable [StatusSource ι] {s : Scene ι} {past : List (Moment ι)}

/-- How a scene depends on what has happened in it. -/
structure Kept (s : Scene ι) (past : List (Moment ι)) : Prop where
  ticking : s.projector.ticker.isRunning = s.projector.running
  running : s.projector.running = true ↔ .start ∈ stepsSince Moment.stops past
  due : s.projector.ticker.pending ≠ 0 ↔ s.projector.running = true ∧ Due past
  behind : s.projector.ticker.pending ≠ 0 →
    [.start, .fire].Sublist (stepsSince Moment.stops past)
  reported : s.interpreter.reported = past.filterMap Moment.asked?
  highlights : s.projector.highlights = past.foldl Moment.light .none
  ticks : s.projector.ticks = count past

theorem kept_new (interval : Nat) (program : Program) (interpreter : ι) :
    (new interval program interpreter).Kept [] where
  ticking := rfl
  running := by simp [new, Projector.new, stepsSince, since]
  due := by simp [new, Projector.new, Ticker.idle]
  behind := by simp [new, Projector.new, Ticker.idle]
  reported := rfl
  highlights := rfl
  ticks := rfl

namespace Kept

variable (kept : s.Kept past)
include kept

theorem behind_concat {m : Moment ι} (stops : m.stops = false)
    (pending : s.projector.ticker.pending ≠ 0) :
    [.start, .fire].Sublist (stepsSince Moment.stops (past ++ [m])) := by
  rw [stepsSince_concat, if_neg (by simp [stops])]
  exact (kept.behind pending).trans (List.sublist_append_left _ _)

/-- A step that neither concerns the ticker nor projects leaves everything as it was. -/
theorem of_idle {next : Scene ι} {m : Moment ι} (projector : next.projector = s.projector)
    (reported : next.interpreter.reported = s.interpreter.reported)
    (begins : m.begins = false) (starts : m.step = .start → s.projector.running = true)
    (stops : m.stops = false) (fires : m.fires = false) (looks : m.looks = false)
    (projected : m.projected? = none) (light : ∀ l, Moment.light l m = l) :
    next.Kept (past ++ [m]) where
  ticking := by rw [projector, kept.ticking]
  running := by
    have running := kept.running
    rw [projector, stepsSince_concat]
    grind
  due := by simp [projector, kept.due, due_concat, begins, fires, looks]
  behind pending := kept.behind_concat stops (projector ▸ pending)
  reported := by simp [reported, kept.reported, Moment.asked?, looks]
  highlights := by simp [projector, kept.highlights, light]
  ticks := by simp [projector, kept.ticks, count_concat, begins, projected]

theorem start : (s.apply .start).Kept (past ++ [⟨s, .start⟩]) := by
  cases running : s.projector.running with
  | true =>
    have same : s.apply .start = s := by simp [apply, Projector.start, running]
    rw [same]
    exact kept.of_idle rfl rfl (by simp [Moment.begins, running]) (fun _ => running) rfl rfl rfl
      rfl fun _ => rfl
  | false =>
    have begins : (⟨s, .start⟩ : Moment ι).begins = true := by simp [Moment.begins, running]
    have next : (s.apply .start).projector =
        ⟨s.projector.ticker.start s.projector.interval, s.projector.interval, true,
          s.projector.highlights, 0⟩ := by
      simp [apply, Projector.start, running]
    constructor
    · simp [next]
    · simp [next, stepsSince_concat, Moment.stops]
    · simp [next, Ticker.start, due_concat, begins]
    · simp [next, Ticker.start]
    · simp [apply, kept.reported, Moment.asked?, Moment.looks]
    · simp [next, kept.highlights, Moment.light, Moment.projected?, Moment.asked?, Moment.looks]
    · simp [next, count_concat, begins]

theorem stop : (s.apply .stop).Kept (past ++ [⟨s, .stop⟩]) where
  ticking := rfl
  running := by simp [apply, Projector.stop, stepsSince_concat, Moment.stops]
  due := by simp [apply, Projector.stop, Ticker.stop, Ticker.idle]
  behind := by simp [apply, Projector.stop, Ticker.stop, Ticker.idle]
  reported := by simp [apply, kept.reported, Moment.asked?, Moment.looks]
  highlights := by simp [apply, Projector.stop, Moment.light]
  ticks := by
    simp [apply, Projector.stop, kept.ticks, count_concat, Moment.begins, Moment.projected?,
      Moment.asked?, Moment.looks]

theorem fire : (s.apply .fire).Kept (past ++ [⟨s, .fire⟩]) where
  ticking := by simp [apply, Projector.fire, kept.ticking]
  running := by simp [apply, Projector.fire, kept.running, stepsSince_concat, Moment.stops]
  due := by
    simp only [apply, Projector.fire, Ticker.pending_fire, kept.ticking, due_concat]
    cases running : s.projector.running with
    | true => simp [Moment.begins, Moment.looks, Moment.fires]
    | false => simpa [running] using kept.due
  behind pending := by
    cases running : s.projector.running with
    | true =>
      rw [stepsSince_concat, if_neg (by simp [Moment.stops])]
      exact (List.singleton_sublist.mpr (kept.running.mp running)).append (.refl [_])
    | false =>
      refine kept.behind_concat rfl ?_
      simpa [apply, Projector.fire, kept.ticking, running] using pending
  reported := by simp [apply, kept.reported, Moment.asked?, Moment.looks]
  highlights := by
    simp [apply, Projector.fire, kept.highlights, Moment.light, Moment.projected?, Moment.asked?,
      Moment.looks]
  ticks := by
    simp [apply, Projector.fire, kept.ticks, count_concat, Moment.begins, Moment.projected?,
      Moment.asked?, Moment.looks]

theorem project (status : Status) :
    (s.apply (.project status)).Kept (past ++ [⟨s, .project status⟩]) where
  ticking := kept.ticking
  running := by simp [apply, Projector.project, kept.running, stepsSince_concat, Moment.stops]
  due := by
    simp [apply, Projector.project, kept.due, due_concat, Moment.begins, Moment.looks,
      Moment.fires]
  behind pending := kept.behind_concat rfl pending
  reported := by simp [apply, kept.reported, Moment.asked?, Moment.looks]
  highlights := by
    simp [apply, Projector.project, kept.highlights, Moment.light, Moment.projected?]
  ticks := by
    simp [apply, Projector.project, kept.ticks, count_concat, Moment.begins, Moment.projected?]

theorem poll : (s.apply .poll).Kept (past ++ [⟨s, .poll⟩]) := by
  have next : s.apply .poll = s.poll.state := rfl
  rcases s.poll_cases with ⟨-, answer, state⟩ | ⟨running, due, answer, state⟩
  · have looks : (⟨s, .poll⟩ : Moment ι).looks = false := answer
    have projected : (⟨s, .poll⟩ : Moment ι).projected? = none := by
      simp [Moment.projected?, Moment.asked?, looks]
    rw [next, state]
    exact kept.of_idle rfl rfl rfl nofun rfl rfl looks projected fun l => by
      simp [Moment.light, projected]
  · have looks : (⟨s, .poll⟩ : Moment ι).looks = true := answer
    have projected : (⟨s, .poll⟩ : Moment ι).projected? =
        some (StatusSource.report s.interpreter.source).1 := by
      simp [Moment.projected?, Moment.asked?, looks]
    rw [next, state]
    constructor
    · exact kept.ticking
    · simp [Projector.project, kept.running, stepsSince_concat, Moment.stops]
    · simp [Projector.project, Ticker.take, due_concat, looks]
    · simp [Projector.project, Ticker.take]
    · simp [StatusSource.report, kept.reported, Moment.asked?, looks]
    · simp [StatusSource.report, Projector.project, kept.highlights, Moment.light, projected]
    · simp [Projector.project, kept.ticks, count_concat, Moment.begins, projected]

theorem apply (step : Step ι) : (s.apply step).Kept (past ++ [⟨s, step⟩]) := by
  cases step with
  | start => exact kept.start
  | stop => exact kept.stop
  | fire => exact kept.fire
  | poll => exact kept.poll
  | project status => exact kept.project status
  | edit | interpreter => exact kept.of_idle rfl rfl rfl nofun rfl rfl rfl rfl fun _ => rfl

end Kept

theorem kept_run_new (interval : Nat) (program : Program) (interpreter : ι)
    (steps : List (Step ι)) :
    ((new interval program interpreter).run steps).Kept
      ((new interval program interpreter).history steps) := by
  induction steps using List.reverseRecOn with
  | nil => exact kept_new interval program interpreter
  | append_singleton steps step ih =>
    rw [run_concat, history_concat]
    exact ih.apply step

/-! ## What a run has to do with its history -/

/-- What is done with a projector, and what it does, is what its history says. -/
structure Lawful (s : Scene ι) (past : List (Moment ι)) : Prop where
  /-- A projector runs if it was started since it was last stopped. -/
  running : s.projector.running = true ↔ .start ∈ stepsSince Moment.stops past
  /--
  A look projects just if the projector runs and a tick was fired since the later of two moments:
  when the projector was last set going, and when a look last projected.
  -/
  answer : s.poll.answer = true ↔ s.projector.running = true ∧
    ∃ m ∈ since (fun m => m.begins || m.looks) past, m.fires = true
  /-- After a stop no look projects before a start and, behind it, a fire. -/
  behind : s.poll.answer = true → [.start, .fire].Sublist (stepsSince Moment.stops past)
  /-- The interpreter was asked once by each look that has projected, and never otherwise. -/
  reported : s.interpreter.reported = past.filterMap Moment.asked?
  /-- What is lit was lit by the statuses that were reported or handed over, each at its moment. -/
  highlights : s.projector.highlights = past.foldl Moment.light .none
  /-- The projections are counted since the projector was last set going. -/
  ticks : s.projector.ticks = (since Moment.begins past).countP (·.projected?.isSome)

/--
Whatever is done with a new projector and whatever happens before it, its history accounts for it.
-/
theorem lawful_run_new (interval : Nat) (program : Program) (interpreter : ι)
    (steps : List (Step ι)) :
    ((new interval program interpreter).run steps).Lawful
      ((new interval program interpreter).history steps) := by
  have kept := kept_run_new interval program interpreter steps
  refine ⟨kept.running, ?_, fun answer => ?_, kept.reported, kept.highlights, kept.ticks⟩
  · rw [poll_answer_iff, kept.due]
    exact ⟨fun both => both.2, fun both => ⟨both.1, both⟩⟩
  · exact kept.behind ((poll_answer_iff _).mp answer).2

/-- A second start does away with nothing, and what was fired before the first does not count. -/
example : ((new 20 .empty (Reporter.mk .empty 0)).run
    [.fire, .start, .poll, .fire, .start, .poll]).projector.ticks = 1 := by
  decide

end Scene

end RobotProgram
