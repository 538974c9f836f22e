import Switchboard.Proofs.Operation.Ending

/-!
# Switchboard.Proofs.Operation.Silence

When a listener is left alone.  The gate is held while an event is handed over, so the
phase in which the listener begins to hear it is the phase that let it through; and a
phase that is over never changes again, whoever calls.

* `Silent`, `Refuses` — nothing more is heard, no call is valid any more;
* `silent_of_isTerminal`, `refuses_of_isTerminal` — so it is once an operation is over;
* `callbacks_in_turn` — a listener hears only what the phase allows, and nothing after a
  cancellation or the end.
-/

namespace Switchboard.Operation

variable {α : Type} {plan : Plan α} {op : Operation α}

/-- From here on the listener hears nothing more, whatever happens. -/
def Silent (plan : Plan α) (op : Operation α) : Prop :=
  ∀ moves, (run plan moves op).1.heard = op.heard

/-- From here on no control call is valid, neither one from elsewhere nor one of the
listener. -/
def Refuses (plan : Plan α) (op : Operation α) : Prop :=
  ∀ moves c, ((run plan moves op).1.controller.call c).2 = false ∧
    ((run plan moves op).1.controller.enact c).2.1 = false

theorem silent_of_isTerminal (plan : Plan α) (h : op.phase.isTerminal = true) : Silent plan op :=
  fun moves => (run_of_isTerminal plan moves h).2

theorem refuses_of_isTerminal (plan : Plan α) (h : op.phase.isTerminal = true) :
    Refuses plan op := by
  intro moves c
  have ht : (run plan moves op).1.controller.gate.phase.isTerminal = true := by
    have hp := (run_of_isTerminal plan moves h).1
    exact (congrArg Phase.isTerminal hp).trans h
  have he := Controller.enact_of_isTerminal ht c
  exact ⟨by rw [Controller.call_snd, he], by rw [he]⟩

/-! ## Cancellations -/

/-- A call to cancel that is valid leaves a cancelled operation. -/
theorem phase_cancel (plan : Plan α) (hl : op.isHearing = false)
    (hv : (op.controller.call .cancel).2 = true) :
    (op.step plan (.control .cancel)).1.phase = .cancelled := by
  have hstep : (op.step plan (.control .cancel)).1 =
      { op with controller := (op.controller.call .cancel).1 } := by
    simp [step, hl]
  rw [hstep]
  rcases op.controller.enact_cases .cancel with hc | ⟨q, hq, hc⟩
  · rw [Controller.call_snd, hc] at hv; cases hv
  · simp [phase, gate, Controller.call, hc, hq.eq_cancelled]

/-- When the listener has made a call to cancel, the operation is over. -/
theorem isTerminal_hear_cancel (op : Operation α) (rest : List Control) (seen : Option Nat) :
    (op.hear (.cancel :: rest) seen none).1.phase.isTerminal = true := by
  rw [hear_call]
  rcases op.controller.enact_cases .cancel with hc | ⟨q, hq, hc⟩
  · cases ht : op.phase.isTerminal with
    | true => simpa [phase, gate, hc] using ht
    | false =>
        have hv : op.gate.phase.control? op.gate.kind .cancel = some .cancelled :=
          Phase.turn_iff.2 (.cancel ht)
        have he : op.gate.control? .cancel = some (op.gate.set .cancelled) := by
          rw [Gate.control?_eq, hv]; rfl
        simp only [gate] at he
        simp [Controller.enact, he] at hc
  · simp [phase, gate, hc, hq.eq_cancelled, Phase.isTerminal]

/-- A move that the listener hears something of is one that finds the operation running,
and leaves it running or ended by what is heard. -/
theorem heard_step (plan : Plan α) (op : Operation α) (m : Move α) :
    (op.step plan m).1.heard = op.heard ∨
      ∃ e, (op.step plan m).1.heard = op.heard ++ [e] ∧ op.phase = .running ∧
        (op.step plan m).1.phase = e.ending?.elim .running Ending.phase := by
  cases step_effect plan op m with
  | quiet _ _ hh | turn _ _ _ hh | enter _ _ _ hh => exact .inl hh
  | hear e hb hp _ hh => exact .inr ⟨e, hh, hb, hp⟩

/-- A listener is called only in turn.  After a valid call to cancel it hears nothing;
nothing after it has called to cancel itself; what it begins to hear it hears while the
operation runs, or has just ended by it; and after what ended it nothing is heard and
nothing can be called. -/
theorem callbacks_in_turn (plan : Plan α) (before : List (Move α)) :
    let op := (run plan before (create plan)).1
    (op.isHearing = false → (op.controller.call .cancel).2 = true →
      (op.step plan (.control .cancel)).1.heard = op.heard ∧
        Silent plan (op.step plan (.control .cancel)).1) ∧
    (∀ rest seen first, op.stage = .hearing none (.cancel :: rest) seen →
      (op.step plan (.work first)).1.heard = op.heard ∧
        Silent plan (op.step plan (.work first)).1) ∧
    (∀ m, (op.step plan m).1.heard = op.heard ∨
      ∃ e, (op.step plan m).1.heard = op.heard ++ [e] ∧ op.phase = .running ∧
        (op.step plan m).1.phase = e.ending?.elim .running Ending.phase) ∧
    ((∃ e ∈ op.heard, e.isTerminal = true) → Silent plan op ∧ Refuses plan op) := by
  intro op
  refine ⟨fun hl hv => ?_, fun rest seen first hs => ?_, heard_step plan op, fun ⟨e, he, ht⟩ => ?_⟩
  · have hp := phase_cancel plan hl hv
    refine ⟨?_, silent_of_isTerminal plan (by rw [hp]; rfl)⟩
    simp [step, hl, heard]
  · have hseat : op.isSeated = true := by
      refine (seated_run plan before).resolve_left fun ha => ?_
      rw [show op.stage = .arriving from ha] at hs
      cases hs
    have hstep : (op.step plan (.work first)).1 = (op.hear (.cancel :: rest) seen none).1 := by
      have hw : op.work? plan first = some (op.hear (.cancel :: rest) seen none) := by
        rw [work?_eq_workAt hseat (by simp [hs, stopsAt]), hs]
        rfl
      simp [step, hw]
    rw [hstep]
    refine ⟨?_, silent_of_isTerminal plan (isTerminal_hear_cancel op rest seen)⟩
    simp [hear_call, heard]
  · have hp := (endingAgrees_run plan before).isTerminal_phase he ht
    exact ⟨silent_of_isTerminal plan hp, refuses_of_isTerminal plan hp⟩

end Switchboard.Operation
