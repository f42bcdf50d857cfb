import RobotProgram.Proofs.Program.Invariant

/-!
# Rejections

What is carried out is never answered with a refusal, so what is answered like that has changed
nothing.
-/

namespace RobotProgram

/-! ## Routines -/

namespace Routine

variable {r r' : Routine} {edit : Edit} {reply : Reply}

/-- What is carried out is not answered with a refusal. -/
theorem Effect.not_rejects (effect : Effect r edit reply r') :
    reply.rejects = false ∧ r.ignores edit = false := by
  cases effect with
  | delete handles unlocked some known => exact ⟨by simp [Reply.rejects, some], rfl⟩
  | load records commands unlocked read => exact ⟨rfl, unlocked⟩
  | _ => exact ⟨rfl, rfl⟩

theorem Effect.accepts (effect : Effect r edit reply r')
    (answer : (r.apply edit).answer = .ok reply) : r.rejects edit = false := by
  obtain ⟨accepts, heeds⟩ := effect.not_rejects
  simp [rejects, answer, refused, accepts, heeds]

theorem state_of_rejects (rejected : r.rejects edit = true) : (r.apply edit).state = r := by
  rcases r.apply_spec edit with same | ⟨reply, answer, effect⟩
  · exact same
  · rw [effect.accepts answer] at rejected
    cases rejected

/-- An outcome in the operation's own words tells of a refusal as its answer does. -/
theorem rejects_of_refused {ρ : Type} {o : Outcome Routine (Except Fault ρ)} {f : ρ → Reply}
    (same : r.apply edit = o.map (.map f))
    (rejected : refused (fun reply => (f reply).rejects) o.answer = true) :
    r.rejects edit = true := by
  rw [rejects, same, Outcome.answer_map, refused_map, rejected, Bool.true_or]

end Routine

/-! ## Programs -/

namespace Program

variable {p q : Program} {edit : Edit} {reply : Reply}

theorem Effect.not_rejects (effect : Effect p edit reply q) :
    reply.rejects = false ∧ p.ignores edit = false := by
  cases effect with
  | load records selectFirst events unlocked read => exact ⟨rfl, unlocked⟩
  | inEvent h event found edit reply routine effect =>
    obtain ⟨accepts, heeds⟩ := effect.not_rejects
    exact ⟨accepts, by rw [ignores, found, Option.any_some, heeds]⟩
  | _ => exact ⟨rfl, rfl⟩

theorem Effect.accepts (effect : Effect p edit reply q)
    (answer : (p.apply edit).answer = .ok reply) : p.rejects edit = false := by
  obtain ⟨accepts, heeds⟩ := effect.not_rejects
  simp [rejects, answer, refused, accepts, heeds]

theorem state_of_rejects (wf : p.events.WellFormed) (rejected : p.rejects edit = true) :
    (p.apply edit).state = p := by
  rcases p.apply_spec wf edit with same | ⟨reply, answer, effect⟩
  · exact same
  · rw [effect.accepts answer] at rejected
    cases rejected

/-- An outcome in the operation's own words tells of a refusal as its answer does. -/
theorem rejects_of_refused {ρ : Type} {o : Outcome Program (Except Fault ρ)} {f : ρ → Reply}
    (same : p.apply edit = o.map (.map f))
    (rejected : refused (fun reply => (f reply).rejects) o.answer = true) :
    p.rejects edit = true := by
  rw [rejects, same, Outcome.answer_map, refused_map, rejected, Bool.true_or]

end Program

end RobotProgram
