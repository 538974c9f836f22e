import Switchboard.Proofs.Operation.SeatInvariant

/-!
# Switchboard.Proofs.Operation.ControlStep

What a move does by way of control calls, whoever makes it.  A listener makes its calls step
by step while the worker is in its hands; to the controller they are calls among others.  So
the calls under way of a whole operation are those of one controller, and what is true of its
calls in any order is true of every run.

* `ControlStep`, `Operation.controlStep?` — a call, or one more step of a call under way;
* `Operation.withAllCalls` — the controller with every call under way, the listener's among them;
* `Controller.ControllerStep` — what a move does to that controller;
* `step_controllerStep` — every move is a step of its calls, or the worker takes the phase on.
-/

namespace Switchboard

variable {α : Type}

/-! ## Steps of a call -/

/-- What someone does by way of control calls. -/
inductive ControlStep where
  /-- Makes a call. -/
  | call (control : Control)
  /-- Goes on with the call under way at an index. -/
  | advance (index : Nat)
  deriving DecidableEq, Repr, Inhabited

/-- What a listener is about to do; its own call comes after as many others. -/
def Stage.controlStep? (others : Nat) : Stage α → Option ControlStep
  | hearing (some _) _ _ => some (.advance others)
  | hearing none (control :: _) _ => some (.call control)
  | _ => none

namespace Operation

/-- The controller with all calls under way, also the one that the listener makes. -/
def withAllCalls (op : Operation α) : Controller :=
  { op.controller with pursuits := op.controller.pursuits ++ op.stage.calls }

/-- What a move does by way of control calls, if it does something. -/
def controlStep? (op : Operation α) : Move α → Option ControlStep
  | .control c => if op.isHearing then none else some (.call c)
  | .pursue i =>
    if op.waitsForGate op.controller.pursuits[i]? then none
    else op.controller.pursuits[i]?.map fun _ => .advance i
  | .work _ => if op.isSeated then op.stage.controlStep? op.controller.pursuits.length else none
  | _ => none

end Operation

namespace Controller

/-- What a move does to a controller: nothing, a step of its calls, or it lets the worker
take the phase on, which never comes from or leads to a cancellation. -/
inductive ControllerStep (c : Controller) : Option ControlStep → Controller → Prop where
  | keep : ControllerStep c none c
  | pass {q : Phase} (before : c.gate.phase ≠ .cancelled) (after : q ≠ .cancelled) :
      ControllerStep c none { c with gate := c.gate.set q }
  | call (control : Control) : ControllerStep c (some (.call control)) (c.call control).1
  | advance (i : Nat) : ControllerStep c (some (.advance i)) (c.advance i).1

variable {c : Controller}

theorem ControllerStep.eq_call {c' : Controller} {control : Control}
    (h : c.ControllerStep (some (.call control)) c') : c' = (c.call control).1 := by
  cases h
  rfl

/-- A step of a call does not look at the other calls under way. -/
theorem pursue_withPursuits (c : Controller) (pursuits : List Pursuit) (p : Pursuit) :
    { c with pursuits }.pursue p = ({ (c.pursue p).1 with pursuits }, (c.pursue p).2) := by
  cases p with
  | spawn => simp only [pursue]; split <;> rfl
  | keep | recheck | hook | release => rfl
  | retract | abort => simp only [pursue]; cases c.gate.takeTask.2 <;> rfl

/-- One more step of a call among others puts what comes next in its place. -/
theorem advance_cases (c : Controller) (i : Nat) :
    c.advance i = (c, false) ∨
      ∃ before p after, c.pursuits = before ++ p :: after ∧
        c.advance i =
          ({ (c.pursue p).1 with pursuits := before ++ (c.pursue p).2.1.toList ++ after },
            (c.pursue p).2.2) := by
  cases hp : c.pursuits[i]? with
  | none => exact .inl (advance_of_none hp)
  | some p => exact .inr ⟨_, p, _, pursuits_split hp, advance_eq hp⟩

/-- A call that cancels has to abort the task next. -/
theorem next?_of_cancelled {kind : Kind} {control : Control} {p q : Phase}
    (h : Phase.Turn kind control p q) (hq : q = .cancelled) : control.next? = some .abort := by
  by_cases hc : control = .cancel
  · rw [hc]; rfl
  · exact absurd hq (h.ne_cancelled hc)

end Controller

namespace Operation

variable {plan : Plan α} {op : Operation α}

theorem withAllCalls_of_calls (h : op.stage.calls = []) : op.withAllCalls = op.controller := by
  rw [withAllCalls, h, List.append_nil]

/-- Nobody makes a call, and nobody did. -/
theorem controllerStep_of_calls {op' : Operation α} (h : op.stage.calls = [])
    (h' : op'.stage.calls = []) (hc : op'.controller = op.controller) :
    op.withAllCalls.ControllerStep none op'.withAllCalls := by
  rw [withAllCalls_of_calls h, withAllCalls_of_calls h', hc]
  exact .keep

/-- The worker hands an event over. -/
theorem controllerStep_accept (op : Operation α) (h : op.phase = .running) (e : Event α) :
    op.controller.ControllerStep none (op.accept e).controller := by
  unfold accept
  cases e.ending? with
  | none => exact .keep
  | some k =>
      have hopen : op.controller.gate.phase ≠ .cancelled := by
        rw [show op.controller.gate.phase = .running from h]
        decide
      exact .pass hopen (by cases k <;> decide)

/-- A worker that may go on takes the phase on, or leaves it. -/
theorem controllerStep_of_tryEnter {g : Gate Unit Unit} (h : op.gate.tryEnter = (g, some true)) :
    op.controller.ControllerStep none (op.withGate g).controller := by
  rcases op.gate.tryEnter_true h with ⟨hp, rfl⟩ | ⟨-, rfl⟩
  · have hopen : op.controller.gate.phase ≠ .cancelled := by
      rw [show op.controller.gate.phase = .started from hp]
      decide
    exact .pass hopen (by decide)
  · exact .keep

/-- A step of the worker that is no step of a call of its listener. -/
theorem Work.controllerStep {r : Operation α × List Demand} (h : Work plan op r)
    (hd : ∀ n, op.stage.controlStep? n = none) :
    op.withAllCalls.ControllerStep none r.1.withAllCalls := by
  have hcalls : op.stage.calls = [] := by
    cases hs : op.stage with
    | hearing next todo seen =>
        cases next with
        | none => rfl
        | some p =>
            have hp := hd 0
            rw [hs] at hp
            cases hp
    | _ => rfl
  cases h with
  | enter _ ht =>
      rw [withAllCalls_of_calls hcalls, withAllCalls_of_calls rfl]
      exact controllerStep_of_tryEnter ht
  | report _ hp =>
      rw [withAllCalls_of_calls hcalls, withAllCalls_of_calls rfl]
      exact controllerStep_accept op hp _
  | @deliver seen _ e rest _ hp =>
      rw [withAllCalls_of_calls hcalls, withAllCalls_of_calls rfl]
      exact controllerStep_accept { op with pending := rest } hp e
  | pursue hs | call hs =>
      have hp := hd 0
      rw [hs] at hp
      cases hp
  | @heard seen _ => cases seen <;> exact controllerStep_of_calls hcalls rfl rfl
  | _ => exact controllerStep_of_calls hcalls rfl rfl

/-- A call from elsewhere goes on. -/
theorem withAllCalls_advance (op : Operation α) {i : Nat} {p : Pursuit}
    (hp : op.controller.pursuits[i]? = some p) :
    (op.follow (op.controller.advance i).1 (op.controller.advance i).2).1.withAllCalls =
      (op.withAllCalls.advance i).1 := by
  have hlt := (List.getElem?_eq_some_iff.1 hp).1
  have hget : op.withAllCalls.pursuits[i]? = some p := by
    rw [withAllCalls, List.getElem?_append_left hlt, hp]
  rw [Controller.advance_eq hget, Controller.advance_eq hp, withAllCalls, follow_fst]
  simp only [withAllCalls, Controller.pursue_withPursuits,
    List.take_append_of_le_length (Nat.le_of_lt hlt), List.drop_append_of_le_length hlt,
    List.append_assoc]

/-- The listener goes on with its call. -/
theorem withAllCalls_hear_some (op : Operation α) (todo : List Control) (seen : Option Nat)
    {p : Pursuit} (hcalls : op.stage.calls = [p]) :
    (op.hear todo seen (some p)).1.withAllCalls =
      (op.withAllCalls.advance op.controller.pursuits.length).1 := by
  have hget : op.withAllCalls.pursuits[op.controller.pursuits.length]? = some p := by
    simp [withAllCalls, hcalls]
  rw [Controller.advance_eq hget, withAllCalls, hear, follow_fst]
  simp only [withAllCalls, hcalls, Controller.pursue_withPursuits, Controller.pursuits_pursue]
  simp [Stage.calls]

/-- The listener makes a call. -/
theorem withAllCalls_hear_call (op : Operation α) (control : Control) (rest : List Control)
    (seen : Option Nat) (hcalls : op.stage.calls = []) :
    (op.hear (control :: rest) seen none).1.withAllCalls = (op.withAllCalls.call control).1 := by
  rw [hear_call, withAllCalls_of_calls hcalls]
  have hpursuits : (op.controller.enact control).1.pursuits = op.controller.pursuits := by
    unfold Controller.enact
    cases op.controller.gate.control? control <;> rfl
  simp only [withAllCalls, Controller.call, Stage.calls, hpursuits]

/-- To the controller with all calls under way, every move is a step of these, or it lets
the worker take the phase on. -/
theorem step_controllerStep (plan : Plan α) (op : Operation α) (m : Move α) :
    op.withAllCalls.ControllerStep (op.controlStep? m) (op.step plan m).1.withAllCalls := by
  cases m with
  | control control =>
      simp only [controlStep?, step]
      cases hh : op.isHearing with
      | true => exact .keep
      | false =>
          have hcalls := calls_of_isHearing hh
          have hcalled : ({ op with controller := (op.controller.call control).1 } :
              Operation α).withAllCalls = (op.controller.call control).1 :=
            withAllCalls_of_calls hcalls
          rw [if_neg (by decide), if_neg (by decide), hcalled, withAllCalls_of_calls hcalls]
          exact .call control
  | pursue i =>
      simp only [controlStep?, step]
      split
      · exact .keep
      · cases hp : op.controller.pursuits[i]? with
        | none =>
            rw [Controller.advance_of_none hp]
            exact .keep
        | some p =>
            rw [withAllCalls_advance op hp]
            exact .advance i
  | work first =>
      cases hseat : op.isSeated with
      | false =>
          have hwork : op.work? plan first = none := by simp [work?, hseat]
          simp only [controlStep?, step, hwork, hseat]
          exact .keep
      | true =>
          simp only [controlStep?, hseat, if_pos]
          -- the steps of a listener are the worker's, and only they can be steps of a call
          by_cases hd : ∀ n, op.stage.controlStep? n = none
          · rw [hd]
            rcases op.step_work plan first with hr | ⟨-, hw⟩
            · rw [hr]; exact .keep
            · exact hw.controllerStep hd
          · cases hs : op.stage with
            | hearing next todo seen =>
                have hwork : op.step plan (.work first) = op.hear todo seen next := by
                  rw [step, work?_eq_workAt hseat (by simp [hs, stopsAt]), hs]
                  rfl
                rw [hwork]
                cases next with
                | some p =>
                    rw [withAllCalls_hear_some op todo seen (by rw [hs]; rfl)]
                    exact .advance _
                | none =>
                    cases todo with
                    | nil => exact absurd (fun n => by rw [hs]; rfl) hd
                    | cons control rest =>
                        rw [withAllCalls_hear_call op control rest seen (by rw [hs]; rfl)]
                        exact .call control
            | _ => exact absurd (fun n => by rw [hs]; rfl) hd
  | answer r =>
      simp only [controlStep?, step, answer]
      split
      · next hs _ => exact controllerStep_of_calls (by rw [hs]; rfl) rfl rfl
      · exact .keep
  | registered r =>
      simp only [controlStep?, step, registered]
      split
      · next hs => cases r <;> exact controllerStep_of_calls (by rw [hs]; rfl) rfl rfl
      · exact .keep
  | unregistered =>
      simp only [controlStep?, step, unregistered]
      split
      · next hs => exact controllerStep_of_calls (by rw [hs]; rfl) rfl rfl
      · exact .keep
  | message m =>
      simp only [controlStep?, step, message]
      split <;> exact .keep
  | hangUp => exact .keep

end Operation
end Switchboard
