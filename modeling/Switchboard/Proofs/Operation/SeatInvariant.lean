import Switchboard.Proofs.Operation.Effect

/-!
# Switchboard.Proofs.Operation.SeatInvariant

Where the worker of an operation is, and what that says of the phase.  A start hands the
worker over and a cancellation takes it away, each in steps that come after the phase has
changed; so who finds the worker gone, or a step under way that takes it away, knows that
the operation was cancelled, and who finds it in its seat knows that a start has still to
hand it over.

* `Controller.SeatInvariant` — this, for a controller and the calls under way;
* `SeatInvariant.turn`, `SeatInvariant.pursue` — the first part of a call and every other keep it;
* `SeatInvariant` — this for an operation, whose listener may be in the middle of a call;
* `seatInvariant_step` — every move keeps it;
* `SeatInvariant.of_released` — a removal that nobody waits for says that the operation was
  cancelled.
-/

namespace Switchboard

variable {α : Type}

/-- Whether a step of a call follows a cancellation. -/
def Pursuit.isCancelling : Pursuit → Bool
  | retract | abort | hook | release => true
  | spawn | keep | recheck => false

namespace Controller

/-- What the seat of the worker and the calls under way say of the phase. -/
structure SeatInvariant (c : Controller) (calls : List Pursuit) : Prop where
  cancelling : ∀ p ∈ calls, p.isCancelling = true → c.gate.phase = .cancelled
  leaving : c.seat = .aborting ∨ c.seat = .released → c.gate.phase = .cancelled
  held : c.seat = .held →
    c.gate.phase = .created ∨ c.gate.phase = .cancelled ∨ .spawn ∈ calls

variable {c : Controller} {calls : List Pursuit}

/-- A worker that has been handed over needs no start any more. -/
theorem SeatInvariant.of_isTaken (h : c.SeatInvariant calls) (hseat : c.seat.isTaken = true)
    {calls' : List Pursuit} (hcalls : ∀ p ∈ calls', p ∈ calls) : c.SeatInvariant calls' where
  cancelling := fun p hp => h.cancelling p (hcalls p hp)
  leaving := h.leaving
  held := fun hs => by rw [hs] at hseat; cases hseat

/-- It is the calls at hand that count, wherever they are kept. -/
theorem SeatInvariant.withPursuits (h : c.SeatInvariant calls) (pursuits : List Pursuit) :
    SeatInvariant { c with pursuits } calls :=
  ⟨h.cancelling, h.leaving, h.held⟩

/-- The phase changes, and the operation was started and not cancelled before. -/
theorem SeatInvariant.set (h : c.SeatInvariant calls) (hstarted : c.gate.phase ≠ .created)
    (hopen : c.gate.phase ≠ .cancelled) (q : Phase) :
    SeatInvariant { c with gate := c.gate.set q } calls where
  cancelling := fun p hp hc => absurd (h.cancelling p hp hc) hopen
  leaving := fun hs => absurd (h.leaving hs) hopen
  held := fun hs => .inr (.inr (((h.held hs).resolve_left hstarted).resolve_left hopen))

/-- A control call that is valid. -/
theorem SeatInvariant.turn (h : c.SeatInvariant calls) {control : Control} {q : Phase}
    (ht : Phase.Turn c.gate.kind control c.gate.phase q) :
    SeatInvariant { c with gate := c.gate.set q } (calls ++ control.next?.toList) := by
  have hopen := ht.source_ne_cancelled
  refine ⟨fun p hp hc => ?_, fun hs => absurd (h.leaving hs) hopen, fun hs => ?_⟩
  · rcases List.mem_append.1 hp with hp | hp
    · exact absurd (h.cancelling p hp hc) hopen
    · cases control with
      | start => rw [List.mem_singleton.1 hp] at hc; cases hc
      | cancel => exact ht.eq_cancelled
      | pause | resume => cases hp
  · rcases (h.held hs).imp_right (·.resolve_left hopen) with hcreated | hspawn
    · -- what has not been started can be started or cancelled
      rw [hcreated] at ht
      cases ht with
      | start => exact .inr (.inr (List.mem_append_right _ List.mem_cons_self))
      | cancel => exact .inr (.inl rfl)
    · exact .inr (.inr (List.mem_append_left _ hspawn))

/-- What follows a cancellation, and what follows a start only once it finds the operation
cancelled. -/
theorem isCancelling_next {p n : Pursuit} (hn : (c.pursue p).2.1 = some n)
    (hc : n.isCancelling = true) : p.isCancelling = true ∨ c.gate.phase = .cancelled := by
  cases p with
  | spawn =>
      simp only [Controller.pursue] at hn
      split at hn <;> cases hn
      cases hc
  | keep =>
      simp only [Controller.pursue] at hn
      split at hn <;> cases hn
      cases hc
  | recheck =>
      simp only [Controller.pursue] at hn
      split at hn
      · next hp => exact .inr hp
      · cases hn
  | retract | abort | hook | release => exact .inl rfl

/-- Only what follows a cancellation runs the hook. -/
theorem isCancelling_of_hook {p : Pursuit} (h : (c.pursue p).2.2 = true) :
    p.isCancelling = true := by
  cases p with
  | spawn => simp only [Controller.pursue] at h; split at h <;> cases h
  | keep | recheck => cases h
  | retract | abort | hook | release => rfl

/-- Only what follows a cancellation takes the worker away. -/
theorem seat_pursue (c : Controller) (p : Pursuit) :
    (c.pursue p).1.seat = c.seat ∨ p.isCancelling = true ∨ (c.pursue p).1.seat = .spawned := by
  cases p with
  | spawn =>
      simp only [Controller.pursue]
      split
      · exact .inr (.inr rfl)
      · exact .inl rfl
  | keep | recheck => exact .inl rfl
  | retract | abort | hook | release => exact .inr (.inl rfl)

theorem pursuits_abort (c : Controller) (t : Option Unit) :
    (c.abort t).pursuits = c.pursuits := by
  cases t <;> rfl

/-- A step of a call leaves the other calls under way as they are. -/
theorem pursuits_pursue (c : Controller) (p : Pursuit) :
    (c.pursue p).1.pursuits = c.pursuits := by
  cases p with
  | spawn => simp only [Controller.pursue]; split <;> rfl
  | retract | abort => exact pursuits_abort _ _
  | keep | recheck | hook | release => rfl

/-- One more step of a call under way. -/
theorem SeatInvariant.pursue (before after : List Pursuit) {p : Pursuit}
    (h : c.SeatInvariant (before ++ p :: after)) :
    (c.pursue p).1.SeatInvariant (before ++ (c.pursue p).2.1.toList ++ after) := by
  have hkeeps := c.pursue_keepsPhase p
  have hp : p ∈ before ++ p :: after := List.mem_append_right _ List.mem_cons_self
  refine ⟨fun x hx hc => ?_, fun hs => ?_, fun hs => ?_⟩
  · rw [hkeeps.phase_eq]
    simp only [List.mem_append, Option.mem_toList] at hx
    rcases hx with (hx | hx) | hx
    · exact h.cancelling x (List.mem_append_left _ hx) hc
    · rcases isCancelling_next hx hc with hcancelling | hcancelled
      · exact h.cancelling p hp hcancelling
      · exact hcancelled
    · exact h.cancelling x (List.mem_append_right _ (List.mem_cons_of_mem p hx)) hc
  · rw [hkeeps.phase_eq]
    rcases c.seat_pursue p with hsame | hcancelling | hspawned
    · exact h.leaving (by rwa [hsame] at hs)
    · exact h.cancelling p hp hcancelling
    · rw [hspawned] at hs
      rcases hs with hs | hs <;> cases hs
  · rw [hkeeps.phase_eq]
    have hbefore : c.seat = .held := by
      have hleads := hkeeps.seat
      rw [hs] at hleads
      exact hleads.eq_held
    have hnot : p ≠ .spawn := by
      rintro rfl
      simp [Controller.pursue, hbefore] at hs
    refine (h.held hbefore).imp_right (Or.imp_right fun hspawn => ?_)
    simp only [List.mem_append, List.mem_cons] at hspawn ⊢
    rcases hspawn with hspawn | hspawn | hspawn
    · exact .inl (.inl hspawn)
    · exact absurd hspawn.symm hnot
    · exact .inr hspawn

end Controller

/-- The step of a call that a listener is about to take. -/
def Stage.calls : Stage α → List Pursuit
  | hearing next _ _ => next.toList
  | _ => []

namespace Operation

variable {plan : Plan α} {op : Operation α}

/-- What the seat of the worker and all calls under way say of the phase. -/
def SeatInvariant (op : Operation α) : Prop :=
  op.controller.SeatInvariant (op.controller.pursuits ++ op.stage.calls)

theorem calls_of_isHearing (h : op.isHearing = false) : op.stage.calls = [] := by
  unfold isHearing at h
  cases hs : op.stage with
  | hearing => rw [hs] at h; cases h
  | _ => rfl

/-- A worker that takes a step has been handed over, and has only to leave the phase alone
or change it as a worker may. -/
theorem Work.seatInvariant {r : Operation α × List Demand} (h : Work plan op r)
    (hseat : op.isSeated = true) (hm : SeatInvariant op) : SeatInvariant r.1 := by
  have hquiet : op.controller.SeatInvariant (op.controller.pursuits ++ []) :=
    Controller.SeatInvariant.of_isTaken hm hseat fun p hp =>
      List.mem_append_left _ (by simpa using hp)
  have hset : ∀ {p : Phase} (q : Phase), op.phase = p → p ≠ .created ∧ p ≠ .cancelled →
      Controller.SeatInvariant { op.controller with gate := op.gate.set q }
        (op.controller.pursuits ++ []) := by
    rintro _ q rfl ⟨hstarted, hopen⟩
    exact hquiet.set hstarted hopen q
  cases h with
  | enter _ ht =>
      rcases op.gate.tryEnter_true ht with ⟨hp, rfl⟩ | ⟨hp, rfl⟩
      · exact hset _ hp (by decide)
      · exact hquiet
  | @report a _ hp =>
      simp only [SeatInvariant, accept]
      cases (answerEvent a).ending? with
      | none => exact hquiet
      | some k => exact hset _ hp (by decide)
  | @deliver seen _ e rest _ hp =>
      simp only [SeatInvariant, accept]
      cases e.ending? with
      | none => exact hquiet
      | some k => exact hset _ hp (by decide)
  | @pursue p todo seen hs =>
      rw [SeatInvariant, hs] at hm
      have hnext := Controller.SeatInvariant.pursue op.controller.pursuits [] hm
      rw [List.append_nil] at hnext
      rw [SeatInvariant, hear, follow_fst, Controller.pursuits_pursue]
      exact hnext
  | @call control rest seen hs =>
      rw [hear_call, SeatInvariant]
      rcases op.controller.enact_cases control with hc | ⟨q, hq, hc⟩
      · rw [hc]; exact hquiet
      · rw [hc]
        rw [List.append_nil] at hquiet
        exact Controller.SeatInvariant.turn hquiet hq
  | @heard seen _ => cases seen <;> exact hquiet
  | _ => exact hquiet

theorem seatInvariant_step (plan : Plan α) (op : Operation α) (m : Move α) (hm : SeatInvariant op) :
    SeatInvariant (op.step plan m).1 := by
  have h := step_cases plan op m
  generalize op.step plan m = r at h ⊢
  cases h with
  | turn hidle ht =>
      have hcalls := calls_of_isHearing hidle
      rw [SeatInvariant, hcalls, List.append_nil] at hm
      simp only [SeatInvariant, hcalls, List.append_nil]
      exact (Controller.SeatInvariant.turn hm ht).withPursuits _
  | @pursue i p hp =>
      rw [SeatInvariant, Controller.pursuits_split hp, List.append_assoc, List.cons_append] at hm
      have hnext := Controller.SeatInvariant.pursue _ _ hm
      rw [← List.append_assoc] at hnext
      simp only [SeatInvariant, follow_fst]
      exact hnext.withPursuits _
  | work hseat hw => exact hw.seatInvariant hseat hm
  | answer hs | grant hs | fail hs | removed hs => rw [SeatInvariant, hs] at hm; exact hm
  | nothing | message | hangUp => exact hm

/-- A step of a call that starts a removal runs the hook, so the operation was cancelled. -/
theorem SeatInvariant.of_released_follow (hm : SeatInvariant op) {p : Pursuit}
    (hp : p ∈ op.controller.pursuits ++ op.stage.calls) {o : Operation α} {c : Controller}
    (hne : released (o.follow c (op.controller.pursue p).2.2).2 ≠ []) : op.phase = .cancelled := by
  have hhook : (op.controller.pursue p).2.2 = true := by
    cases hh : (op.controller.pursue p).2.2 with
    | true => rfl
    | false => rw [hh] at hne; exact absurd rfl hne
  exact hm.cancelling p hp (Controller.isCancelling_of_hook hhook)

/-- A removal that nobody waits for says that the operation was cancelled. -/
theorem SeatInvariant.of_released (hm : SeatInvariant op) {m : Move α}
    (hne : released (op.step plan m).2 ≠ []) : (op.step plan m).1.phase = .cancelled := by
  have h := step_cases plan op m
  generalize op.step plan m = r at h hne ⊢
  cases h with
  | @pursue _ p hp =>
      have hmem := List.mem_append_left op.stage.calls (List.mem_of_getElem? hp)
      rw [follow_fst]
      exact (op.controller.pursue_keepsPhase p).phase_eq.trans (hm.of_released_follow hmem hne)
  | work _ hw =>
      cases hw with
      | @pursue p todo seen hs =>
          have hcalls : p ∈ op.stage.calls := by rw [hs]; exact List.mem_cons_self
          have hmem := List.mem_append_right op.controller.pursuits hcalls
          rw [hear, follow_fst]
          exact (op.controller.pursue_keepsPhase p).phase_eq.trans (hm.of_released_follow hmem hne)
      | _ => exact absurd rfl hne
  | _ => exact absurd rfl hne

theorem seatInvariant_create (plan : Plan α) : SeatInvariant (create plan) := by
  have hphase : (create plan).controller.gate.phase = .created := phase_create plan
  have hseat : (create plan).controller.seat = .held := by unfold create; split <;> rfl
  have hcalls : (create plan).controller.pursuits ++ (create plan).stage.calls = [] := by
    unfold create
    split <;> rfl
  rw [SeatInvariant, hcalls]
  refine ⟨nofun, fun hs => ?_, fun _ => .inl hphase⟩
  rw [hseat] at hs
  rcases hs with hs | hs <;> cases hs

end Operation
end Switchboard
