import Switchboard.Proofs.Operation.Effect

/-!
# Switchboard.Proofs.Operation.Ending

How the phase of an operation and what its listener has heard go together.  An event
that ends the operation and the phase that it ends in come at once, and nothing comes
after them.

* `EndingAgrees` — phase and listener agree on whether and how the operation has ended;
* `endingAgrees_run` — they agree after every run;
* `run_of_isTerminal` — an operation that is over stays as it is.
-/

namespace Switchboard.Operation

variable {α : Type} {plan : Plan α} {op op' : Operation α}

/-! ## Agreement -/

/-- The phase and the listener agree on how the operation has ended. -/
structure EndingAgrees (op : Operation α) : Prop where
  /-- An operation that has ended by itself has said so last. -/
  ended : ∀ k : Ending, op.phase = k.phase → ∃ before e, op.heard = before ++ [e] ∧
    e.ending? = some k ∧ ∀ x ∈ before, x.ending? = none
  /-- One that has not has not said so. -/
  unended : (∀ k : Ending, op.phase ≠ k.phase) → ∀ x ∈ op.heard, x.ending? = none

theorem ne_ending_of_isTerminal_eq_false {p : Phase} (h : p.isTerminal = false) (k : Ending) :
    p ≠ k.phase := by
  rintro rfl
  rw [k.isTerminal_phase] at h
  cases h

theorem EndingAgrees.of_unended (hp : ∀ k : Ending, op.phase ≠ k.phase)
    (h : ∀ x ∈ op.heard, x.ending? = none) : EndingAgrees op :=
  ⟨fun k hk => absurd hk (hp k), fun _ => h⟩

theorem endingAgrees_create (plan : Plan α) : EndingAgrees (create plan) := by
  refine .of_unended (fun k => ?_) (by simp [heard, create])
  rw [phase_create]
  exact ne_ending_of_isTerminal_eq_false rfl k

/-- Every effect keeps the agreement. -/
theorem Effect.endingAgrees (h : Effect op op') (ha : EndingAgrees op) : EndingAgrees op' := by
  cases h with
  | quiet hp _ hh => exact ⟨by rw [hp, hh]; exact ha.ended, by rw [hp, hh]; exact ha.unended⟩
  | turn c ht _ hh =>
      have hopen := ha.unended (ne_ending_of_isTerminal_eq_false ht.isTerminal_eq_false)
      exact .of_unended ht.ne_ending (by rw [hh]; exact hopen)
  | enter hb hp _ hh =>
      have hopen := ha.unended (ne_ending_of_isTerminal_eq_false (by rw [hb]; rfl))
      refine .of_unended (fun k => ?_) (by rw [hh]; exact hopen)
      rw [hp]
      exact ne_ending_of_isTerminal_eq_false rfl k
  | hear e hb hp _ hh =>
      have hopen := ha.unended (ne_ending_of_isTerminal_eq_false (by rw [hb]; rfl))
      cases he : e.ending? with
      | none =>
          rw [he] at hp
          refine .of_unended (fun k => ?_) (fun x hx => ?_)
          · rw [hp]
            exact ne_ending_of_isTerminal_eq_false rfl k
          · rw [hh] at hx
            rcases List.mem_append.1 hx with hx | hx
            · exact hopen x hx
            · rw [List.mem_singleton.1 hx, he]
      | some k =>
          rw [he] at hp
          refine ⟨fun l hl => ?_, fun hne => absurd hp (hne k)⟩
          have hkl : k = l := Ending.phase_injective (hp.symm.trans hl)
          exact ⟨op.heard, e, hh, hkl ▸ he, hopen⟩

/-- Phase and listener agree after every run. -/
theorem endingAgrees_run (plan : Plan α) (moves : List (Move α)) :
    EndingAgrees (run plan moves (create plan)).1 :=
  run_invariant (fun op m h => (step_effect plan op m).endingAgrees h) moves
    (endingAgrees_create plan)

/-- What is heard last of an operation that has ended is what ended it. -/
theorem EndingAgrees.isTerminal_phase (h : EndingAgrees op) {e : Event α} (he : e ∈ op.heard)
    (ht : e.isTerminal = true) : op.phase.isTerminal = true := by
  cases hp : op.phase.isTerminal with
  | true => rfl
  | false =>
      have hnone := h.unended (ne_ending_of_isTerminal_eq_false hp) e he
      simp [Event.isTerminal, hnone] at ht

/-! ## The end -/

/-- An operation that is over stays as it is. -/
theorem Effect.of_isTerminal (h : Effect op op') (ht : op.phase.isTerminal = true) :
    op'.phase = op.phase ∧ op'.heard = op.heard := by
  cases h with
  | quiet hp _ hh => exact ⟨hp, hh⟩
  | turn c hq => rw [hq.isTerminal_eq_false] at ht; cases ht
  | enter hb => rw [hb] at ht; cases ht
  | hear e hb => rw [hb] at ht; cases ht

theorem run_of_isTerminal (plan : Plan α) (moves : List (Move α))
    (ht : op.phase.isTerminal = true) :
    (run plan moves op).1.phase = op.phase ∧ (run plan moves op).1.heard = op.heard := by
  refine run_invariant (P := fun o => o.phase = op.phase ∧ o.heard = op.heard) ?_ moves ⟨rfl, rfl⟩
  intro o m ⟨hp, hh⟩
  obtain ⟨hp', hh'⟩ := (step_effect plan o m).of_isTerminal (by rw [hp]; exact ht)
  exact ⟨hp'.trans hp, hh'.trans hh⟩

end Switchboard.Operation
