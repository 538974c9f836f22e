import Switchboard.Proofs.Operation.ControlStep
import Switchboard.Proofs.Operation.Effect

/-!
# Switchboard.Proofs.Operation.Callback

Who calls a listener, and who waits for it.  Callers, servers and the worker make their moves
in any order, but an event reaches the listener in a step of the worker alone, and the worker
takes steps only as a task.  What others do may have to wait meanwhile for the gate, which the
worker holds; of what a control call has to do after its first part, only one step looks at the
gate, with which a start finds out whether the task that it started is still wanted.

* `Callback`, `callbacks` — an event that a listener begins to hear, and all those of a run;
* `heard_step_cases`, `callbacks_run` — every one of them is the worker's;
* `Controller.NoRecheck`, `ControllerStep.noRecheck` — a stream has no task to look for;
* `waitsForGate_run` — so no call on a stream waits for its listener once it is made;
* `sentBeforeRecheck`, `exists_waitsForGate_iff` — but the start of an operation with one answer
  may have to.
-/

namespace Switchboard

variable {α : Type}

namespace Operation

/-! ## Callbacks -/

/-- An event that a listener begins to hear. -/
structure Callback (α : Type) where
  event : Event α
  /-- The move that brings it. -/
  move : Move α
  /-- Where the worker is at that moment. -/
  seat : Seat

/-- The worker calls the listener, and runs as a task. -/
structure Callback.ByWorker (c : Callback α) : Prop where
  move : ∃ messageFirst, c.move = .work messageFirst
  seat : c.seat.isTaken = true

/-- What a listener begins to hear in the course of some moves. -/
def callbacks (plan : Plan α) : List (Move α) → Operation α → List (Callback α)
  | [], _ => []
  | m :: rest, op =>
    let op' := (op.step plan m).1
    (op'.heard.drop op.heard.length).map (⟨·, m, op.controller.seat⟩) ++ callbacks plan rest op'

/-- A move that the listener hears something of is a step of the worker, as a task. -/
theorem heard_step_cases (plan : Plan α) (op : Operation α) (m : Move α) :
    (op.step plan m).1.heard = op.heard ∨
      (∃ messageFirst, m = .work messageFirst) ∧ op.isSeated = true ∧
        ∃ e, (op.step plan m).1.heard = op.heard ++ [e] := by
  have h := step_cases plan op m
  generalize op.step plan m = r at h ⊢
  cases h with
  | work hseat hw =>
      cases hw.effect with
      | quiet _ _ hh | turn _ _ _ hh | enter _ _ _ hh => exact .inl hh
      | hear e _ _ _ hh => exact .inr ⟨⟨_, rfl⟩, hseat, e, hh⟩
  | pursue =>
      rw [follow_fst]
      exact .inl rfl
  | _ => exact .inl rfl

/-- All that a listener hears it hears from the worker. -/
theorem callbacks_run (plan : Plan α) (moves : List (Move α)) (op : Operation α) :
    (run plan moves op).1.heard = op.heard ++ (callbacks plan moves op).map (·.event) ∧
      ∀ c ∈ callbacks plan moves op, c.ByWorker := by
  induction moves generalizing op with
  | nil => exact ⟨(List.append_nil _).symm, List.forall_mem_nil _⟩
  | cons m rest ih =>
      obtain ⟨hrun, hby⟩ := ih (op.step plan m).1
      rw [run, callbacks]
      rcases heard_step_cases plan op m with hsame | ⟨hwork, hseat, e, hmore⟩
      · rw [hsame] at hrun
        rw [hsame, List.drop_length]
        exact ⟨hrun, hby⟩
      · rw [hmore] at hrun
        rw [hmore, List.drop_left]
        refine ⟨hrun.trans (List.append_assoc ..), fun c hc => ?_⟩
        rcases List.mem_cons.1 hc with rfl | hc
        · exact ⟨hwork, hseat⟩
        · exact hby c hc

end Operation

/-! ## Waiting -/

namespace Controller

/-- The calls on a stream have no task to look for. -/
structure NoRecheck (c : Controller) : Prop where
  kind : c.gate.kind = .stream
  absent : .recheck ∉ c.pursuits

variable {c c' : Controller}

theorem recheck_not_mem_pursue (hk : c.gate.kind = .stream) (p : Pursuit) :
    .recheck ∉ (c.pursue p).2.1.toList := by
  cases p with
  | spawn => simp only [pursue]; split <;> simp
  | keep => simp [pursue, hk]
  | recheck => simp only [pursue]; split <;> simp
  | retract | abort | hook | release => simp [pursue]

/-- No move makes a call on a stream look for a task. -/
theorem ControllerStep.noRecheck {d : Option ControlStep} (hs : c.ControllerStep d c')
    (h : c.NoRecheck) :
    c'.NoRecheck := by
  cases hs with
  | keep => exact h
  | pass => exact ⟨h.kind, h.absent⟩
  | call control =>
      rcases c.call_cases control with hc | ⟨q, -, hc⟩
      · rw [hc]; exact h
      · rw [hc]
        refine ⟨h.kind, fun hmem => ?_⟩
        rcases List.mem_append.1 hmem with hmem | hmem
        · exact h.absent hmem
        · cases control <;> simp [Control.next?] at hmem
  | advance i =>
      rcases c.advance_cases i with ha | ⟨before, p, after, hsplit, ha⟩
      · rw [ha]; exact h
      · have habsent := h.absent
        rw [hsplit] at habsent
        rw [ha]
        refine ⟨(c.pursue_keepsPhase p).kind_eq.trans h.kind, fun hmem => ?_⟩
        have hnext := recheck_not_mem_pursue h.kind p
        simp only [List.mem_append, List.mem_cons, not_or] at hmem habsent
        rcases hmem with (hmem | hmem) | hmem
        · exact habsent.1 hmem
        · exact hnext hmem
        · exact habsent.2.2 hmem

end Controller

namespace Operation

theorem noRecheck_create {plan : Plan α} (hk : plan.kind = .stream) :
    (create plan).withAllCalls.NoRecheck := by
  have hc : create plan = { controller := { gate := (Gate.create .stream).onCancel () } } := by
    simp [create, hk, Controller.create]
  rw [hc]
  exact ⟨rfl, nofun⟩

/-- No call on a stream that has been made waits for its listener. -/
theorem waitsForGate_run {plan : Plan α} (hk : plan.kind = .stream) (moves : List (Move α))
    (i : Nat) :
    let op := (run plan moves (create plan)).1
    op.waitsForGate op.controller.pursuits[i]? = false := by
  intro op
  have h : op.withAllCalls.NoRecheck :=
    run_invariant (fun op m h => (step_controllerStep plan op m).noRecheck h) moves
      (noRecheck_create hk)
  cases hp : op.controller.pursuits[i]? with
  | none => exact Bool.and_false _
  | some p =>
      have hmem : p ∈ op.withAllCalls.pursuits := List.mem_append_left _ (List.mem_of_getElem? hp)
      have hne : p ≠ .recheck := fun he => h.absent (he ▸ hmem)
      simp [waitsForGate, hne]

/-- An operation with one answer, started and sent before the start has looked for its task. -/
def sentBeforeRecheck : Operation α where
  controller := {
    gate := { kind := .single, phase := .running, version := 2, task := some () }
    seat := .spawned
    pursuits := [.recheck] }
  stage := .sending

theorem run_eq_sentBeforeRecheck {plan : Plan α} (hk : plan.kind = .single) :
    (run plan ([.control .start, .pursue 0, .pursue 0] ++ List.replicate 3 (.work true))
      (create plan)).1 = sentBeforeRecheck := by
  obtain ⟨kind, decode, reaction⟩ := plan
  cases hk
  rfl

/-- The answer comes, and while the listener hears it the start has to wait. -/
theorem waitsForGate_sentBeforeRecheck (plan : Plan α) (r : Except ApiError α) :
    let op := (run plan [.answer r, .work true] sentBeforeRecheck).1
    op.waitsForGate op.controller.pursuits[0]? = true := by
  cases r <;> rfl

/-- A call that has been made may have to wait for the listener if and only if there is one answer
to wait for. -/
theorem exists_waitsForGate_iff (plan : Plan α) :
    (∃ moves, ∃ i : Nat, let op := (run plan moves (create plan)).1
      op.waitsForGate op.controller.pursuits[i]? = true) ↔ plan.kind = .single := by
  cases hk : plan.kind with
  | single =>
      have hwaits := waitsForGate_sentBeforeRecheck plan (.error default)
      rw [← run_eq_sentBeforeRecheck hk, ← run_append_fst] at hwaits
      exact ⟨fun _ => rfl, fun _ => ⟨_, 0, hwaits⟩⟩
  | stream =>
      refine ⟨fun ⟨moves, i, hwaits⟩ => ?_, nofun⟩
      cases (waitsForGate_run hk moves i).symm.trans hwaits

end Operation
end Switchboard
