import Switchboard.Proofs.Operation.Delivery
import Switchboard.Proofs.Operation.History

/-!
# Switchboard.Proofs.Operation.Wake

A worker that waits for a change does not miss one.  It looks at the phase after it has
begun to watch, so whatever it has not seen then is a change that it does not know of.

* `KnowsChanges` — what a worker that watches knows of the changes and the phase;
* `knowsChanges_run` — it knows that after every run;
* `wakes_for_change` — who waits has nothing to do, or can go on.
-/

namespace Switchboard.Operation

variable {α : Type} {plan : Plan α} {op op' : Operation α}

/-! ## What the worker knows -/

/-- What a worker that watches knows: no change that is still to come, and if it knows of
every change, why it waits. -/
def KnowsChanges (op : Operation α) : Stage α → Prop
  | .checking seen | .flushing seen | .hearing _ _ (some seen) | .deciding seen =>
    seen ≤ op.gate.version
  | .waiting seen =>
    seen ≤ op.gate.version ∧
      (seen = op.gate.version → op.phase = .created ∨ ∃ back, op.phase = .paused back)
  | .selecting seen =>
    seen ≤ op.gate.version ∧ (seen = op.gate.version → op.phase.isTerminal = false)
  | _ => True

/-- What others do leaves that as it is.  The changes only get more, so who knows of every
change after it knew of every change before, and there was none. -/
theorem KnowsChanges.frame {s : Stage α} (h : KnowsChanges op s) (he : Effect op op')
    (hh : op'.heard = op.heard) : KnowsChanges op' s := by
  have hv := he.version_le
  cases s with
  | checking seen | flushing seen | deciding seen => exact Nat.le_trans h hv
  | hearing _ _ seen =>
      cases seen with
      | none => trivial
      | some seen => exact Nat.le_trans h hv
  | waiting seen | selecting seen =>
      obtain ⟨hseen, hlast⟩ := h
      refine ⟨Nat.le_trans hseen hv, fun hs => ?_⟩
      rw [he.phase_eq (by omega) hh]
      exact hlast (by omega)
  | _ => trivial

/-- Every step of a worker keeps that: it waits only if it finds no reason to go on after
it has begun to watch. -/
theorem Work.knowsChanges {r : Operation α × List Demand} (h : Work plan op r)
    (hk : KnowsChanges op op.stage) : KnowsChanges r.1 r.1.stage := by
  cases h with
  | look | lookAgain | watch | flushAgain => exact Nat.le_refl _
  | wait hs hw =>
      rw [hs] at hk
      exact ⟨hk, fun _ => op.gate.phase_of_tryEnter_none hw⟩
  | deliver hs _ hp =>
      rw [hs] at hk
      exact Nat.le_trans hk (Effect.of_notify plan hp _ _ _).version_le
  | settle hs => rw [hs] at hk; exact hk
  | @pursue p todo seen hs =>
      rw [hs] at hk
      obtain ⟨c, slot, next, hc, hr⟩ := op.hear_some todo seen p
      have he : Effect op (op.hear todo seen (some p)).1 := by rw [hr]; exact .of_keepsPhase hc rfl
      rw [hr] at he ⊢
      cases seen with
      | none => trivial
      | some seen => exact Nat.le_trans hk he.version_le
  | @call control rest seen hs =>
      rw [hs] at hk
      cases seen with
      | none => trivial
      | some seen => exact Nat.le_trans hk (Effect.of_hear_call op control rest _).version_le
  | @heard seen hs =>
      rw [hs] at hk
      cases seen with
      | none => trivial
      | some seen => exact hk
  | await hs ht => rw [hs] at hk; exact ⟨hk, fun _ => ht⟩
  | take hs | turnAway hs => rw [hs] at hk; exact hk.1
  | _ => trivial

theorem knowsChanges_step (plan : Plan α) (op : Operation α) (m : Move α)
    (hk : KnowsChanges op op.stage) :
    KnowsChanges (op.step plan m).1 (op.step plan m).1.stage := by
  have h := step_cases plan op m
  have he := step_effect plan op m
  generalize op.step plan m = r at h he ⊢
  cases h with
  | work _ hw => exact hw.knowsChanges hk
  | pursue => rw [follow_fst] at he ⊢; exact hk.frame he rfl
  | answer | grant | fail | removed => trivial
  | nothing | turn | message | hangUp => exact hk.frame he rfl

theorem knowsChanges_run (plan : Plan α) (moves : List (Move α)) :
    KnowsChanges (run plan moves (create plan)).1 (run plan moves (create plan)).1.stage :=
  run_invariant (P := fun op => KnowsChanges op op.stage) (knowsChanges_step plan) moves trivial

/-! ## Waiting -/

/-- A worker that waits and does not know of every change can go on. -/
theorem not_rests_of_lt (hseat : op.isSeated = true) {seen : Nat}
    (hs : op.stage = .waiting seen ∨ op.stage = .selecting seen) (hv : seen < op.gate.version) :
    ¬ Rests plan op := by
  intro hr
  have hstuck := hr.not_work hseat
  rcases hs with hs | hs
  · by_cases ha : op.controller.seat = .aborting
    · exact hstuck _ (.stop (by rw [hs]; rfl) ha)
    · exact hstuck _ (.lookAgain hs ha (Nat.ne_of_lt hv))
  · exact hstuck _ (.flushAgain hs (Nat.ne_of_lt hv))

/-- A stream's worker that knows of every change has delivered what is pending, if the
stream is not paused. -/
theorem pending_of_selecting {f : Feed} {seen : Nat}
    (hf : FeedInvariant plan f op (.selecting seen))
    (hv : seen = op.gate.version) (ht : op.phase.isTerminal = false) :
    op.pending = [] ∨ ∃ back, op.phase = .paused back := by
  obtain ⟨hd, -, hp⟩ := hf
  by_cases hpaused : ∃ back, op.phase = .paused back
  · exact .inr hpaused
  · refine .inl (hp ?_ hv)
    have hc : op.phase ≠ .cancelled := fun hc => by rw [hc] at ht; cases ht
    refine (running_or_ending hd.entered (fun back hb => hpaused ⟨back, hb⟩) hc).resolve_right ?_
    rintro ⟨k, hk⟩
    exact ne_ending_of_isTerminal_eq_false ht k hk

/-- No change is missed.  A worker that waits to go on finds the operation not started or
paused, or there was a change that it does not know of; one that waits for a message or a
change of the phase finds that the operation is not over and nothing is to be delivered, or
there was such a change; and where there was one, the worker can take a step. -/
theorem wakes_for_change (plan : Plan α) (moves : List (Move α)) :
    let op := (run plan moves (create plan)).1
    (∀ seen, op.stage = .waiting seen →
      op.phase = .created ∨ (∃ back, op.phase = .paused back) ∨ seen < op.gate.version) ∧
    (∀ seen, op.stage = .selecting seen →
      seen < op.gate.version ∨
        op.phase.isTerminal = false ∧ (op.pending = [] ∨ ∃ back, op.phase = .paused back)) ∧
    (∀ seen, op.stage = .waiting seen ∨ op.stage = .selecting seen → seen < op.gate.version →
      ¬ Rests plan op) := by
  intro op
  have hk : KnowsChanges op op.stage := knowsChanges_run plan moves
  refine ⟨fun seen hs => ?_, fun seen hs => ?_, fun seen hs hv => ?_⟩
  · rw [hs] at hk
    rcases Nat.lt_or_eq_of_le hk.1 with hv | hv
    · exact .inr (.inr hv)
    · exact (hk.2 hv).imp id .inl
  · rw [hs] at hk
    rcases Nat.lt_or_eq_of_le hk.1 with hv | hv
    · exact .inl hv
    · refine .inr ⟨hk.2 hv, ?_⟩
      cases hkind : plan.kind with
      | single =>
          have ha : HeardByStage op op.stage := heardByStage_run hkind moves
          rw [hs] at ha
          exact ha.elim
      | stream =>
          have hf : FeedInvariant plan _ op op.stage := feedInvariant_run hkind moves
          rw [hs] at hf
          exact pending_of_selecting hf hv (hk.2 hv)
  · refine not_rests_of_lt ((seated_run plan moves).resolve_left fun ha => ?_) hs hv
    have ha' : op.stage = .arriving := ha
    rw [ha'] at hs
    rcases hs with hs | hs <;> cases hs

end Switchboard.Operation
