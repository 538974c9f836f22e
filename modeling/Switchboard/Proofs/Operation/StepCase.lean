import Switchboard.Proofs.Operation.Work

/-!
# Switchboard.Proofs.Operation.StepCase

What one move leads to, as a relation.  `StepCase plan op m r` has one case for each way in
which a move can change an operation, with all that has to hold for it; what the worker
does is `Work`, and what others do stands beside it.

* `StepCase` — the cases;
* `step_cases` — every move is one of them;
* `step_successor` — what a move does to the controller;
* `run_invariant` — what every move keeps, every run keeps.
-/

namespace Switchboard

variable {α : Type}

/-- One step of what a call under way at an index has to do. -/
theorem Controller.advance_eq {c : Controller} {i : Nat} {p : Pursuit}
    (h : c.pursuits[i]? = some p) :
    c.advance i =
      ({ (c.pursue p).1 with
        pursuits := c.pursuits.take i ++ (c.pursue p).2.1.toList ++ c.pursuits.drop (i + 1) },
        (c.pursue p).2.2) := by
  unfold advance
  rw [h]

theorem Controller.advance_of_none {c : Controller} {i : Nat} (h : c.pursuits[i]? = none) :
    c.advance i = (c, false) := by
  unfold advance
  rw [h]

/-- A call under way among the others. -/
theorem Controller.pursuits_split {c : Controller} {i : Nat} {p : Pursuit}
    (h : c.pursuits[i]? = some p) :
    c.pursuits = c.pursuits.take i ++ p :: c.pursuits.drop (i + 1) := by
  obtain ⟨hlt, rfl⟩ := List.getElem?_eq_some_iff.1 h
  rw [List.getElem_cons_drop, List.take_append_drop]

namespace Operation

/-- What a move can lead to. -/
inductive StepCase (plan : Plan α) (op : Operation α) :
    Move α → Operation α × List Demand → Prop where
  /-- A caller waits for the gate, the worker waits, a call is not valid, or nobody waits for
  what others report. -/
  | nothing {m : Move α} : StepCase plan op m (op, [])
  /-- A control call from elsewhere is valid. -/
  | turn {c : Control} {q : Phase} (idle : op.isHearing = false)
      (turn : Phase.Turn op.gate.kind c op.phase q) :
      StepCase plan op (.control c)
        ({ op with
          controller := { op.controller with
            gate := op.gate.set q, pursuits := op.controller.pursuits ++ c.next?.toList } }, [])
  /-- A call from elsewhere goes on. -/
  | pursue {i : Nat} {p : Pursuit} (pursuit : op.controller.pursuits[i]? = some p) :
      StepCase plan op (.pursue i)
        (op.follow
          { (op.controller.pursue p).1 with
            pursuits := op.controller.pursuits.take i ++ (op.controller.pursue p).2.1.toList ++
              op.controller.pursuits.drop (i + 1) }
          (op.controller.pursue p).2.2)
  | work {first : Bool} {r : Operation α × List Demand} (seat : op.isSeated = true)
      (work : Work plan op r) : StepCase plan op (.work first) r
  | answer (stage : op.stage = .sending) {r : Except ApiError α} :
      StepCase plan op (.answer r) (op.goto (.answered r), [])
  /-- The subscription is registered. -/
  | grant (stage : op.stage = .registering) {id : String} :
      StepCase plan op (.registered (.ok id)) (op.goto (.storing id), [])
  /-- It is not, and the worker has that to tell. -/
  | fail (stage : op.stage = .registering) {e : ApiError} :
      StepCase plan op (.registered (.error e))
        ({ op with listening := false, pending := op.pending ++ [.failed e], stage := .watching },
          [])
  | removed {id : String} (stage : op.stage = .unregistering id) :
      StepCase plan op .unregistered (op.goto .finished, [])
  | message (inboxOpen : op.inboxOpen = true) {m : StreamMessage} :
      StepCase plan op (.message m) ({ op with inbox := op.inbox ++ [m] }, [])
  | hangUp : StepCase plan op .hangUp (op.hangUp, [])

variable {plan : Plan α} {op : Operation α}

theorem stepCase_control (plan : Plan α) (op : Operation α) (c : Control) :
    StepCase plan op (.control c) (op.step plan (.control c)) := by
  simp only [step]
  cases hh : op.isHearing with
  | true => exact .nothing
  | false =>
      rw [if_neg (by decide)]
      rcases op.controller.call_cases c with hc | ⟨q, hq, hc⟩
      · rw [hc]; exact .nothing
      · rw [hc]; exact .turn hh hq

theorem stepCase_pursue (plan : Plan α) (op : Operation α) (i : Nat) :
    StepCase plan op (.pursue i) (op.step plan (.pursue i)) := by
  simp only [step]
  split
  · exact .nothing
  · cases hp : op.controller.pursuits[i]? with
    | none =>
        rw [Controller.advance_of_none hp]
        exact .nothing
    | some p =>
        rw [Controller.advance_eq hp]
        exact .pursue hp

/-- Every move is one of these. -/
theorem step_cases (plan : Plan α) (op : Operation α) (m : Move α) :
    StepCase plan op m (op.step plan m) := by
  cases m with
  | control c => exact stepCase_control plan op c
  | pursue i => exact stepCase_pursue plan op i
  | work first =>
      rcases op.step_work plan first with hr | ⟨hseat, hw⟩
      · rw [hr]; exact .nothing
      · exact .work hseat hw
  | answer r =>
      simp only [step, answer]
      split
      · next hs _ => exact .answer hs
      · exact .nothing
  | registered r =>
      simp only [step, registered]
      split
      · next hs =>
        cases r with
        | ok id => exact .grant hs
        | error e => exact .fail hs
      · exact .nothing
  | unregistered =>
      simp only [step, unregistered]
      split
      · next hs => exact .removed hs
      · exact .nothing
  | message m =>
      simp only [step, message]
      split
      · next ho => exact .message ho
      · exact .nothing
  | hangUp => exact .hangUp

/-! ## The controller -/

theorem successor_of_tryEnter {g : Gate Unit Unit} (h : op.gate.tryEnter = (g, some true)) :
    op.controller.Successor (op.withGate g).controller := by
  rcases op.gate.tryEnter_true h with ⟨hp, rfl⟩ | ⟨-, rfl⟩
  · refine .set op.controller.pursuits ?_ rfl
    rw [show op.controller.gate.phase = .started from hp]
    exact .enter
  · exact .keeps (.refl _)

theorem successor_accept (h : op.phase = .running) (e : Event α) :
    op.controller.Successor (op.accept e).controller := by
  unfold accept
  cases e.ending? with
  | none => exact .keeps (.refl _)
  | some k =>
      refine .set op.controller.pursuits ?_ rfl
      rw [show op.controller.gate.phase = .running from h]
      exact .finish k.isTerminal_phase

/-- A worker does to the controller what anyone can do. -/
theorem Work.successor {r : Operation α × List Demand} (h : Work plan op r) :
    op.controller.Successor r.1.controller := by
  cases h with
  | enter _ ht => exact successor_of_tryEnter ht
  | report _ hp => exact successor_accept hp _
  | deliver _ _ hp => exact successor_accept hp _
  | @pursue p todo seen _ =>
      obtain ⟨c, slot, next, hc, hr⟩ := op.hear_some todo seen p
      rw [hr]
      exact .keeps hc
  | @call control rest seen _ =>
      rw [hear_call]
      rcases op.controller.enact_cases control with hc | ⟨q, hq, hc⟩
      · rw [hc]; exact .keeps (.refl _)
      · rw [hc]; exact .set op.controller.pursuits (.turn hq) rfl
  | _ => exact .keeps (.refl _)

/-- Whatever happens is the rest of a call to the controller, or a passage of the phase. -/
theorem step_successor (plan : Plan α) (op : Operation α) (m : Move α) :
    op.controller.Successor (op.step plan m).1.controller := by
  have h := step_cases plan op m
  generalize op.step plan m = r at h ⊢
  cases h with
  | turn _ ht => exact .set _ (.turn ht) rfl
  | @pursue _ p _ =>
      rw [follow_fst]
      exact .keeps ((op.controller.pursue_keepsPhase p).withPursuits _)
  | work _ hw => exact hw.successor
  | _ => exact .keeps (.refl _)

/-! ## Runs -/

theorem phase_create (plan : Plan α) : (create plan).phase = .created := by
  unfold create phase gate
  split <;> rfl

theorem run_append_fst (plan : Plan α) (moves more : List (Move α)) (op : Operation α) :
    (run plan (moves ++ more) op).1 = (run plan more (run plan moves op).1).1 := by
  induction moves generalizing op with
  | nil => rfl
  | cons m rest ih => exact ih (op.step plan m).1

/-- What every move keeps, every run keeps. -/
theorem run_invariant {P : Operation α → Prop}
    (hstep : ∀ op m, P op → P (op.step plan m).1) (moves : List (Move α)) {op : Operation α}
    (h : P op) : P (run plan moves op).1 := by
  induction moves generalizing op with
  | nil => exact h
  | cons m rest ih => exact ih (hstep op m h)

end Operation
end Switchboard
