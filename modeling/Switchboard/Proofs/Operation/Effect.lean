import Switchboard.Proofs.Operation.StepCase

/-!
# Switchboard.Proofs.Operation.Effect

What one thing that happens can do to the gate of an operation and to what its
listener has heard, whoever does it: the worker, a caller, or the listener itself.

* `Effect` — the four ways in which gate and listener can change together;
* `step_effect` — every move has such an effect;
* `seated_run` — a worker that has set out runs as a task.
-/

namespace Switchboard.Operation

variable {α : Type}

/-! ## Effects -/

/-- What a move can do to the gate and to what the listener has heard. -/
inductive Effect (op op' : Operation α) : Prop where
  /-- Nothing. -/
  | quiet (phase : op'.phase = op.phase) (version : op'.gate.version = op.gate.version)
      (heard : op'.heard = op.heard)
  /-- A control call turns the phase. -/
  | turn (c : Control) (turn : Phase.Turn op.gate.kind c op.phase op'.phase)
      (version : op'.gate.version = op.gate.version + 1) (heard : op'.heard = op.heard)
  /-- The worker may go on. -/
  | enter (before : op.phase = .started) (after : op'.phase = .running)
      (version : op'.gate.version = op.gate.version + 1) (heard : op'.heard = op.heard)
  /-- The listener begins to hear an event; the last one ends the operation. -/
  | hear (e : Event α) (before : op.phase = .running)
      (after : op'.phase = e.ending?.elim .running Ending.phase)
      (version : op.gate.version ≤ op'.gate.version) (heard : op'.heard = op.heard ++ [e])

theorem Effect.refl (op : Operation α) : Effect op op := .quiet rfl rfl rfl

/-- Every effect is a passage of the phase. -/
theorem Effect.leads {op op' : Operation α} (h : Effect op op') :
    Phase.Leads op.gate.kind op.phase op'.phase := by
  cases h with
  | quiet hp => rw [hp]; exact .stay _
  | turn _ ht => exact .turn ht
  | enter hb ha => rw [hb, ha]; exact .enter
  | hear e hb ha =>
      rw [hb, ha]
      cases e.ending? with
      | none => exact .stay _
      | some k => exact .finish k.isTerminal_phase

/-- Nothing sets an operation back. -/
theorem Effect.rank_le {op op' : Operation α} (h : Effect op op') :
    op.phase.rank ≤ op'.phase.rank :=
  h.leads.rank_le

/-- Nothing takes a change back. -/
theorem Effect.version_le {op op' : Operation α} (h : Effect op op') :
    op.gate.version ≤ op'.gate.version := by
  cases h with
  | quiet _ hv => omega
  | turn _ _ hv => omega
  | enter _ _ hv => omega
  | hear _ _ _ hv => exact hv

/-- With no change and nothing heard the phase is the one before. -/
theorem Effect.phase_eq {op op' : Operation α} (h : Effect op op')
    (hv : op'.gate.version ≤ op.gate.version) (hh : op'.heard = op.heard) :
    op'.phase = op.phase := by
  cases h with
  | quiet hp => exact hp
  | turn _ _ hv' => omega
  | enter _ _ hv' => omega
  | hear e _ _ _ hh' =>
      rw [hh] at hh'
      simp at hh'

/-- The rest of a call does nothing to the gate and the listener. -/
theorem Effect.of_keepsPhase {op op' : Operation α} (hc : op.controller.KeepsPhase op'.controller)
    (hn : op'.notices = op.notices) : Effect op op' := by
  exact .quiet hc.phase_eq hc.version_eq (by simp [heard, hn])

/-- What the gate makes of an event is an effect. -/
theorem Effect.of_notify (plan : Plan α) {op : Operation α} (h : op.phase = .running)
    (rest : List (Event α)) (e : Event α) (seen : Option Nat) :
    Effect op (({ op with pending := rest }.accept e).notify plan e seen) := by
  refine .hear e h ?_ ?_ (heard_notify ..)
  · cases he : e.ending? with
    | none => simpa [notify, accept, withGate, phase, gate, he] using h
    | some k => simp [notify, accept, withGate, phase, gate, he]
  · cases he : e.ending? <;> simp [notify, accept, withGate, gate, he]

/-- What the listener does while it hears an event changes nothing of what it heard. -/
@[simp] theorem map_event_modify (notices : List (Notice α)) (i : Nat) (ok : Bool) :
    (notices.modify i (Notice.add · ok)).map (·.event) = notices.map (·.event) := by
  apply List.ext_getElem (by simp)
  intro j hj hj'
  simp only [List.getElem_map, List.getElem_modify]
  split <;> rfl

/-- A control call of the listener has the effect of a call. -/
theorem Effect.of_hear_call (op : Operation α) (c : Control) (rest : List Control)
    (seen : Option Nat) : Effect op (op.hear (c :: rest) seen none).1 := by
  rw [hear_call]
  rcases op.controller.enact_cases c with hc | ⟨q, hq, hc⟩
  · exact .quiet (by simp [hc, phase, gate]) (by simp [hc, gate]) (by simp [heard])
  · exact .turn c (by simpa [hc, phase, gate] using hq) (by simp [hc, gate]) (by simp [heard])

theorem Effect.of_tryEnter {op : Operation α} {g : Gate Unit Unit}
    (h : op.gate.tryEnter = (g, some true)) (s : Stage α) :
    Effect op ((op.withGate g).goto s) := by
  rcases op.gate.tryEnter_true h with ⟨hp, rfl⟩ | ⟨hp, rfl⟩
  · exact .enter hp rfl rfl rfl
  · exact .quiet rfl rfl rfl

/-- Every step of a worker has an effect. -/
theorem Work.effect {plan : Plan α} {op : Operation α} {r : Operation α × List Demand}
    (h : Work plan op r) : Effect op r.1 := by
  cases h with
  | enter _ ht => exact .of_tryEnter ht _
  | report _ hp => exact .of_notify plan hp op.pending _ _
  | deliver _ _ hp => exact .of_notify plan hp _ _ _
  | @pursue p todo seen _ =>
      obtain ⟨c, slot, next, hc, hr⟩ := op.hear_some todo seen p
      rw [hr]
      exact .of_keepsPhase hc rfl
  | call => exact .of_hear_call ..
  | heard => exact .quiet rfl rfl rfl
  | _ => exact .quiet rfl rfl rfl

/-- Every move has an effect. -/
theorem step_effect (plan : Plan α) (op : Operation α) (m : Move α) :
    Effect op (op.step plan m).1 := by
  have h := step_cases plan op m
  generalize op.step plan m = r at h ⊢
  cases h with
  | turn _ hq => exact .turn _ hq rfl rfl
  | @pursue _ p _ =>
      rw [follow_fst]
      exact .of_keepsPhase ((op.controller.pursue_keepsPhase p).withPursuits _) rfl
  | work _ hw => exact hw.effect
  | _ => exact .quiet rfl rfl rfl

/-! ## Seats -/

/-- A worker that has set out runs as a task. -/
def Seated (op : Operation α) : Prop := op.stage = .arriving ∨ op.isSeated = true

theorem seated_step (plan : Plan α) (op : Operation α) (m : Move α) (hs : Seated op) :
    Seated (op.step plan m).1 := by
  have h := step_cases plan op m
  generalize op.step plan m = r at h ⊢
  cases h with
  | @pursue _ p _ =>
      rw [follow_fst]
      exact hs.imp id (op.controller.pursue_keepsPhase p).seat.isTaken
  | work hseat hw => exact .inr (hw.successor.seat.isTaken hseat)
  | answer hst | grant hst | fail hst | removed hst =>
      exact .inr (hs.resolve_left (by rw [hst]; nofun))
  | nothing | turn | message | hangUp => exact hs

/-- A worker that has set out runs as a task, after every run. -/
theorem seated_run (plan : Plan α) (moves : List (Move α)) :
    Seated (run plan moves (create plan)).1 :=
  run_invariant (seated_step plan) moves (.inl rfl)

end Switchboard.Operation
