import RobotProgram.Proofs.Program.Rejection
import RobotProgram.Proofs.Roster.Turnover

/-!
# Handles of commands

The handle of a command stands for that command as long as it is in its routine, wherever it is
moved: its kind and the class that performs it stay what they were when the handle was given out.

## Main definitions

* `Routine.names`: the commands in order, by handle and by the two names that a save file has.
* `Routine.created`: the commands that an operation makes; `Routine.issued`: their handles.
* `Routine.withdrawn`: the handles that an operation takes away.
-/

namespace RobotProgram.Routine

open Roster (Turnover)

variable {r r' : Routine}

/-- A command by its handle, the name of its kind and the class that performs it. -/
abbrev Name : Type := Handle Command × String × String

def name (entry : Handle Command × Command) : Name := (entry.1, entry.2.kind.gui, entry.2.logic)

def names (r : Routine) : List Name := r.entries.map name

/-! ## Making and removing -/

/-- The commands that an operation makes when it is carried out. -/
def Edit.created (reply : Reply) (after : Routine) : Edit → List Name
  | .add kind _ | .insert kind _ _ =>
    match reply with
    | .added h => h.toList.map (·, kind.gui, kind.logic)
    | _ => []
  | .load records => after.commands.order.zip (records.map fun r => (r.typeGui, r.typeLogic))
  | _ => []

/-- The handles that an operation takes away when it is carried out. -/
def Edit.withdrawn (before : Routine) : Edit → List (Handle Command)
  | .delete handles => handles.eraseDups
  | .load _ => before.commands.order
  | _ => []

def created (r : Routine) (edit : Edit) : List Name :=
  match (r.apply edit).answer with
  | .ok reply => if r.rejects edit then [] else edit.created reply (r.apply edit).state
  | .error _ => []

def issued (r : Routine) (edit : Edit) : List (Handle Command) := (r.created edit).map Prod.fst

def withdrawn (r : Routine) (edit : Edit) : List (Handle Command) :=
  if r.rejects edit then [] else edit.withdrawn r

theorem created_cases (r : Routine) (edit : Edit) :
    (r.apply edit).state = r ∧ r.created edit = [] ∧ r.withdrawn edit = [] ∨
      ∃ reply, Effect r edit reply (r.apply edit).state ∧
        r.created edit = edit.created reply (r.apply edit).state ∧
        r.withdrawn edit = edit.withdrawn r := by
  rcases r.rejects_or_effect edit with ⟨same, rejected⟩ | ⟨reply, answer, effect⟩
  · refine .inl ⟨same, ?_, if_pos rejected⟩
    unfold created
    split
    · exact if_pos rejected
    · rfl
  · have accepted := Bool.eq_false_iff.mp (effect.accepts answer)
    refine .inr ⟨reply, effect, ?_, if_neg accepted⟩
    rw [created, answer]
    exact if_neg accepted

/-! ## Names -/

theorem names_reindent (wf : r.commands.WellFormed) : r.reindent.names = r.names :=
  map_entries_reindent wf fun _ _ _ => rfl

theorem map_fst_names (wf : r.commands.WellFormed) : r.names.map Prod.fst = r.commands.order := by
  rw [← wf.map_fst_entries, names, List.map_map]
  rfl

theorem mem_names_iff (wf : r.commands.WellFormed) {n : Name} :
    n ∈ r.names ↔ ∃ c, r.commands.find? n.1 = some c ∧ c.kind.gui = n.2.1 ∧ c.logic = n.2.2 := by
  obtain ⟨h, gui, logic⟩ := n
  simp only [names, name, List.mem_map, Prod.mk.injEq, Prod.exists, entries, wf.mem_entries_iff]
  grind

theorem mem_names_insert (wf : r.commands.WellFormed) (index : Nat) (kind : CommandKind)
    (parameters : Parameters) {n : Name} :
    n ∈ (reindent { r with
        commands := r.commands.registerAt index (.new kind parameters) }).names ↔
      n = (r.commands.nextHandle, kind.gui, kind.logic) ∨ n ∈ r.names := by
  rw [names_reindent (wf.registerAt _ _), names, names, entries,
    Roster.entries_registerAt wf, List.mem_map, List.mem_map]
  simp only [Roster.mem_insertAt, exists_eq_or_imp]
  exact or_congr eq_comm .rfl

theorem names_moveTo (wf : r.commands.WellFormed) {h : Handle Command}
    (known : r.commands.contains h = true) (index : Nat) :
    r.names ⊆ (reindent { r with commands := r.commands.moveTo h index }).names := by
  obtain ⟨c, found⟩ := Option.isSome_iff_exists.mp known
  rw [names_reindent (wf.moveTo (wf.mem_order found) index)]
  refine List.map_subset _ fun entry mem => ?_
  rw [entries, Roster.entries_moveTo wf found, Roster.mem_insertAt, List.mem_filter]
  by_cases same : entry.1 = h
  · have hc : some entry.2 = some c := by rw [← wf.mem_entries_iff.mp mem, same, found]
    exact .inl (Prod.ext same (Option.some.inj hc))
  · exact .inr ⟨mem, decide_eq_true same⟩

theorem names_update (r : Routine) (h : Handle Command) (parameters : Parameters) :
    names { r with commands := r.commands.modify h fun c => { c with parameters } } = r.names := by
  rw [names, entries, Roster.entries_modify, List.map_map]
  refine List.map_congr_left fun entry _ => ?_
  dsimp only [Function.comp, name]
  split <;> rfl

/-- Loading makes all the commands that are there afterwards. -/
theorem created_load (wf : r.commands.WellFormed) {records : List CommandRecord}
    {commands : List Command} (read : records.mapM Command.ofRecord = .ok commands)
    (reply : Reply) {loaded : Routine}
    (after : loaded = reindent { r with commands := commands.foldl .register r.commands.clear }) :
    (Edit.load records).created reply loaded = loaded.names := by
  obtain ⟨wf', entries', -⟩ := Roster.registerAll_spec wf.clear commands
  have written : records = commands.map Command.toRecord :=
    (map_of_mapM Command.toRecord_of_ofRecord read).symm
  have order : loaded.commands.order = (Roster.numbered r.commands.next commands).map Prod.fst := by
    rw [after]
    exact wf'.map_fst_entries.symm.trans (congrArg _ entries')
  have named : loaded.names = (Roster.numbered r.commands.next commands).map name := by
    rw [after, names_reindent wf']
    exact congrArg _ entries'
  have kinds : records.map (fun record => (record.typeGui, record.typeLogic)) =
      (Roster.numbered r.commands.next commands).map fun entry =>
        (entry.2.kind.gui, entry.2.logic) := by
    rw [written, List.map_map]
    conv_lhs => rw [← Roster.map_snd_numbered r.commands.next commands, List.map_map]
    rfl
  rw [Edit.created, order, kinds, List.zip_map', named]
  rfl

/-- Commands keep their names until they are taken away, and those that are made get theirs. -/
theorem Effect.names (wf : r.WellFormed) {edit : Edit} {reply : Reply}
    (effect : Effect r edit reply r') :
    (∀ n ∈ r.names, n.1 ∉ edit.withdrawn r → n ∈ r'.names) ∧
      ∀ n ∈ edit.created reply r', n ∈ r'.names := by
  have none {n : Name} : n ∉ ([] : List Name) := List.not_mem_nil
  cases effect with
  | add kind parameters =>
    refine ⟨fun n mem _ => (mem_names_insert wf.commands ..).mpr (.inr mem), fun n mem => ?_⟩
    exact (mem_names_insert wf.commands ..).mpr (.inl (List.mem_singleton.mp mem))
  | insert kind parameters index =>
    refine ⟨fun n mem _ => (mem_names_insert wf.commands ..).mpr (.inr mem), fun n mem => ?_⟩
    exact (mem_names_insert wf.commands ..).mpr (.inl (List.mem_singleton.mp mem))
  | delete handles =>
    refine ⟨fun n mem kept => ?_, fun n mem => absurd mem none⟩
    rw [names_reindent (wf.commands.foldl_remove _)]
    obtain ⟨entry, he, rfl⟩ := List.mem_map.mp mem
    refine List.mem_map_of_mem ?_
    rw [entries, Roster.entries_foldl_remove]
    exact List.mem_filter.mpr ⟨he, decide_eq_true kept⟩
  | move h index _ known =>
    exact ⟨fun n mem _ => names_moveTo wf.commands known index mem, fun n mem => absurd mem none⟩
  | update h parameters =>
    exact ⟨fun n mem _ => names_update r h parameters ▸ mem, fun n mem => absurd mem none⟩
  | reindent =>
    exact ⟨fun n mem _ => names_reindent wf.commands ▸ mem, fun n mem => absurd mem none⟩
  | load records commands _ read =>
    refine ⟨fun n mem kept => ?_, fun n mem => created_load wf.commands read .done rfl ▸ mem⟩
    -- whatever was there has been taken away
    have known : n.1 ∈ r.names.map Prod.fst := List.mem_map_of_mem mem
    rw [map_fst_names wf.commands] at known
    exact absurd known kept
  | lock on => exact ⟨fun n mem _ => mem, fun n mem => absurd mem none⟩

/-! ## Turnover -/

/-- Only commands that are there are taken away. -/
theorem Effect.withdrawn_subset (wf : r.commands.WellFormed) {edit : Edit} {reply : Reply}
    (effect : Effect r edit reply r') : edit.withdrawn r ⊆ r.commands.order := by
  cases effect with
  | delete handles _ _ known =>
    exact fun h mem => wf.contains_iff.mp (known h (List.mem_eraseDups.mp mem))
  | load => exact List.Subset.refl _
  | _ => exact List.nil_subset _

theorem Effect.turnover (wf : r.WellFormed) {edit : Edit} {reply : Reply}
    (effect : Effect r edit reply r') :
    r.commands.Turnover ((edit.created reply r').map Prod.fst) (edit.withdrawn r) r'.commands := by
  cases effect with
  | add kind parameters => exact (Turnover.registerAt ..).visit ..
  | insert kind parameters index => exact (Turnover.registerAt ..).visit ..
  | delete handles unlocked some known =>
    have present := (Effect.delete handles unlocked some known).withdrawn_subset wf.commands
    exact (Turnover.removeAll wf.commands present).visit ..
  | move h index _ known =>
    exact (Turnover.moveTo (wf.commands.contains_iff.mp known) index).visit ..
  | update h parameters => exact .modify ..
  | reindent => exact (Turnover.refl _).visit ..
  | load records commands _ read =>
    have loaded := (Turnover.clear wf.commands).trans (.registerAll _ commands)
    rw [List.nil_append, List.append_nil] at loaded
    obtain ⟨wf', entries', -⟩ := Roster.registerAll_spec wf.commands.clear commands
    rw [created_load wf.commands read .done rfl, names_reindent wf', map_fst_names wf',
      ← wf'.map_fst_entries, entries', Roster.entries_clear, List.nil_append,
      Roster.map_fst_numbered]
    exact loaded.visit ..
  | lock on => exact .refl _

/-- The state after an operation. -/
def step (r : Routine) (edit : Edit) : Routine := (r.apply edit).state

theorem turns : Roster.Turns step commands issued withdrawn WellFormed where
  wellFormed _ wf := wf.commands
  kept _ edit wf := wf.apply edit
  present r edit wf := by
    obtain ⟨-, -, none⟩ | ⟨reply, effect, -, withdrawn⟩ := r.created_cases edit
    · simp [none]
    · rw [withdrawn]
      exact effect.withdrawn_subset wf.commands
  turnover r edit wf := by
    obtain ⟨same, none, none'⟩ | ⟨reply, effect, created, withdrawn⟩ := r.created_cases edit
    · rw [step, same, issued, none, none']
      exact .refl _
    · rw [issued, created, withdrawn]
      exact effect.turnover wf

/-- Over a run, commands keep their names until they are taken away. -/
theorem names_run (wf : r.WellFormed) {n : Name} (mem : n ∈ r.names) {edits : List Edit}
    (kept : n.1 ∉ Roster.collect step withdrawn r edits) : n ∈ (r.run edits).names := by
  induction edits generalizing r with
  | nil => exact mem
  | cons edit rest ih =>
    rw [Roster.collect, List.mem_append, not_or] at kept
    refine ih (wf.apply edit) ?_ kept.2
    change n ∈ (r.apply edit).state.names
    obtain ⟨same, -⟩ | ⟨reply, effect, -, withdrawn⟩ := r.created_cases edit
    · rwa [same]
    · exact (effect.names wf).1 n mem (withdrawn ▸ kept.1)

/-- What an operation makes keeps its name until it is taken away. -/
theorem names_run_created (wf : r.WellFormed) {edit : Edit} {n : Name}
    (mem : n ∈ r.created edit) {edits : List Edit}
    (kept : n.1 ∉ Roster.collect step withdrawn (r.step edit) edits) :
    n ∈ ((r.step edit).run edits).names := by
  refine names_run (wf.apply edit) ?_ kept
  obtain ⟨-, none, -⟩ | ⟨reply, effect, created, -⟩ := r.created_cases edit
  · rw [none] at mem
    cases mem
  · exact (effect.names wf).2 n (created ▸ mem)

end RobotProgram.Routine
