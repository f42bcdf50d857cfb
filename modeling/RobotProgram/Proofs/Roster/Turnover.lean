import RobotProgram.Proofs.Roster.Entries

/-!
# Handles over time

Between two states of a roster some handles are given out and some are taken away. Those given out
are numbered on from where the numbering stood, even after all objects have been taken away, so that
none is given out twice and one that was taken away stays without an object.

## Main definitions

* `Roster.Turnover`: the handles given out and taken away between two rosters.
* `Roster.collect`: what the steps of a run bring, one after the other.
* `Roster.Lasting`: handles are never given out again, and found just until they are taken away.
-/

namespace RobotProgram.Roster

variable {α σ ε τ : Type} {r r' r'' : Roster α}

/-! ## Turnover -/

/-- The handles that have been given out, in order, and those taken away, up to a later roster. -/
structure Turnover (r : Roster α) (issued withdrawn : List (Handle α)) (r' : Roster α) : Prop where
  numbered : issued = (List.range' r.next issued.length).map Handle.mk
  next : r'.next = r.next + issued.length
  old : ∀ h ∈ withdrawn, h.id < r'.next
  order : ∀ h, h ∈ r'.order ↔ (h ∈ r.order ∨ h ∈ issued) ∧ h ∉ withdrawn

namespace Turnover

variable {issued issued' withdrawn withdrawn' : List (Handle α)}

theorem of_same (next : r'.next = r.next) (order : ∀ h, h ∈ r'.order ↔ h ∈ r.order) :
    Turnover r [] [] r' :=
  ⟨rfl, next, by simp, by simpa using order⟩

theorem refl (r : Roster α) : Turnover r [] [] r := of_same rfl fun _ => .rfl

theorem next_le (turnover : Turnover r issued withdrawn r') {h : Handle α} (mem : h ∈ issued) :
    r.next ≤ h.id := by
  rw [turnover.numbered] at mem
  obtain ⟨n, hn, rfl⟩ := List.mem_map.mp mem
  exact (List.mem_range'_1.mp hn).1

/-- What is given out later is new, so that it is none of what has been taken away before. -/
theorem trans (first : Turnover r issued withdrawn r')
    (second : Turnover r' issued' withdrawn' r'') :
    Turnover r (issued ++ issued') (withdrawn ++ withdrawn') r'' where
  numbered := by
    have later := second.numbered
    rw [first.next] at later
    conv_lhs => rw [first.numbered, later]
    rw [← List.map_append, List.range'_append_1, List.length_append]
  next := by rw [second.next, first.next, List.length_append, Nat.add_assoc]
  old h mem := by
    have grown := second.next
    rcases List.mem_append.mp mem with mem | mem
    · exact Nat.lt_of_lt_of_le (first.old h mem) (by omega)
    · exact second.old h mem
  order h := by
    have new : h ∈ issued' → h ∉ withdrawn := fun mem gone =>
      absurd (second.next_le mem) (Nat.not_le.mpr (first.old h gone))
    rw [second.order, first.order, List.mem_append, List.mem_append]
    tauto

theorem pairwise (turnover : Turnover r issued withdrawn r') :
    issued.Pairwise fun a b => a.id < b.id := by
  rw [turnover.numbered, List.pairwise_map]
  exact List.pairwise_lt_range'

/-! ### Operations -/

theorem registerAt (r : Roster α) (index : Nat) (x : α) :
    Turnover r [r.nextHandle] [] (r.registerAt index x) := by
  refine ⟨rfl, rfl, by simp, fun h => ?_⟩
  simp [Roster.registerAt, or_comm]

theorem registerAll (r : Roster α) (xs : List α) :
    Turnover r ((List.range' r.next xs.length).map Handle.mk) [] (xs.foldl register r) := by
  induction xs generalizing r with
  | nil => exact refl r
  | cons x xs ih => exact (registerAt r r.length x).trans (ih (r.register x))

theorem removeAll (wf : r.WellFormed) {handles : List (Handle α)} (known : handles ⊆ r.order) :
    Turnover r [] handles (handles.foldl .remove r) := by
  rw [foldl_remove]
  refine ⟨rfl, rfl, fun h mem => (wf.bounds h (known mem)).2, fun h => ?_⟩
  simp

theorem clear (wf : r.WellFormed) : Turnover r [] r.order r.clear :=
  ⟨rfl, rfl, fun h mem => (wf.bounds h mem).2, by simp [Roster.clear]⟩

theorem modify (r : Roster α) (h : Handle α) (f : α → α) : Turnover r [] [] (r.modify h f) :=
  of_same rfl fun _ => .rfl

theorem visit (turnover : Turnover r issued withdrawn r') (step : σ → α → σ × α) (start : σ) :
    Turnover r issued withdrawn (r'.visit step start) :=
  ⟨turnover.numbered, turnover.next, turnover.old, turnover.order⟩

theorem moveTo {h : Handle α} (known : h ∈ r.order) (index : Nat) :
    Turnover r [] [] (r.moveTo h index) := by
  have same := (perm_insertAt index h (r.order.erase h)).trans (List.perm_cons_erase known).symm
  exact of_same rfl fun k => same.mem_iff

end Turnover

/-! ## Runs -/

/-- What the steps of a run bring, one after the other. -/
def collect (step : σ → ε → σ) (out : σ → ε → List τ) : σ → List ε → List τ
  | _, [] => []
  | s, e :: rest => out s e ++ collect step out (step s e) rest

/--
In every run from a state each handle that is given out is greater than those given out before, and
no others are there; one that is taken away is not found from then on; and one that is given out is
found until it is taken away.
-/
structure Lasting (step : σ → ε → σ) (roster : σ → Roster α)
    (issued withdrawn : σ → ε → List (Handle α)) (start : σ) : Prop where
  increasing : ∀ run, (collect step issued start run).Pairwise fun a b => a.id < b.id
  given : ∀ run h, (roster (run.foldl step start)).contains h = true →
    h ∈ collect step issued start run
  gone : ∀ before e after, ∀ h ∈ withdrawn (before.foldl step start) e,
    (roster ((before ++ e :: after).foldl step start)).resolve h =
      .error ((roster ((before ++ e :: after).foldl step start)).fault h)
  found : ∀ before e after, ∀ h ∈ issued (before.foldl step start) e,
    h ∉ collect step withdrawn (step (before.foldl step start) e) after →
      ∃ x, (roster ((before ++ e :: after).foldl step start)).resolve h = .ok x

/-- Each step makes a turnover among the objects that are there, as long as an invariant holds. -/
structure Turns (step : σ → ε → σ) (roster : σ → Roster α)
    (issued withdrawn : σ → ε → List (Handle α)) (inv : σ → Prop) : Prop where
  wellFormed : ∀ s, inv s → (roster s).WellFormed
  kept : ∀ s e, inv s → inv (step s e)
  present : ∀ s e, inv s → withdrawn s e ⊆ (roster s).order
  turnover : ∀ s e, inv s → Turnover (roster s) (issued s e) (withdrawn s e) (roster (step s e))

namespace Turns

variable {step : σ → ε → σ} {roster : σ → Roster α} {issued withdrawn : σ → ε → List (Handle α)}
  {inv : σ → Prop} (turns : Turns step roster issued withdrawn inv) {s : σ} (start : inv s)
include turns start

theorem inv_run (run : List ε) : inv (run.foldl step s) := by
  induction run generalizing s with
  | nil => exact start
  | cons e rest ih => exact ih (turns.kept s e start)

theorem turnover_run (run : List ε) :
    Turnover (roster s) (collect step issued s run) (collect step withdrawn s run)
      (roster (run.foldl step s)) := by
  induction run generalizing s with
  | nil => exact .refl _
  | cons e rest ih => exact (turns.turnover s e start).trans (ih (turns.kept s e start))

theorem lasting (empty : (roster s).order = []) : Lasting step roster issued withdrawn s where
  increasing run := (turns.turnover_run start run).pairwise
  given run h known := by
    have wf := turns.wellFormed _ (turns.inv_run start run)
    have origin := ((turns.turnover_run start run).order h).mp (wf.contains_iff.mp known)
    simpa [empty] using origin.1
  gone before e after h mem := by
    have reached := turns.inv_run start before
    have rest := turns.turnover_run reached (e :: after)
    rw [List.foldl_append]
    have wf := turns.wellFormed _ (turns.inv_run reached (e :: after))
    refine resolve_eq_error_iff.mpr ⟨eq_false_of_ne_true fun known => ?_, rfl⟩
    exact ((rest.order h).mp (wf.contains_iff.mp known)).2 (List.mem_append_left _ mem)
  found before e after h mem kept := by
    have reached := turns.inv_run start before
    have now := turns.turnover _ e reached
    have rest := turns.turnover_run (turns.kept _ e reached) after
    rw [List.foldl_append]
    have wf := turns.wellFormed _ (turns.inv_run reached (e :: after))
    have fresh : h ∉ withdrawn (before.foldl step s) e := fun gone =>
      have below := (turns.wellFormed _ reached).bounds h (turns.present _ e reached gone)
      absurd (now.next_le mem) (Nat.not_le.mpr below.2)
    have known := (rest.order h).mpr ⟨.inl ((now.order h).mpr ⟨.inr mem, fresh⟩), kept⟩
    obtain ⟨x, hx⟩ := wf.find?_some_of_mem_order known
    exact ⟨x, resolve_eq_ok_iff.mpr hx⟩

end Turns

end RobotProgram.Roster
