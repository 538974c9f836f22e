import Switchboard.Operation.Worker

/-!
# Switchboard.Proofs.Operation.Control

What control calls do to the gate of an operation.  A call acts on the phase alone,
and at once; all that it has to do after that leaves the phase as it is.

* `Phase.Turn` — the transitions that control calls make, and `Phase.turn_iff`, which
  says that they make no others;
* `Phase.Leads` — the transitions that anyone makes;
* `Gate.control?_eq` — a call is a turn of the phase, and one more change;
* `Seat.Leads`, `Controller.KeepsPhase` — where the rest of a call can take the worker, and what
  it leaves as it is;
* `Controller.Successor` — what anyone can do to a controller;
* `step_control`, `step_pursue` — what calls from elsewhere do to an operation.
-/

namespace Switchboard

/-! ## Phases -/

@[simp] theorem Ending.isTerminal_phase (k : Ending) : k.phase.isTerminal = true := by
  cases k <;> rfl

theorem Ending.phase_injective {k l : Ending} (h : k.phase = l.phase) : k = l := by
  cases k <;> cases l <;> first | rfl | cases h

namespace Phase

/-- An operation that is over and was not cancelled has ended by itself. -/
theorem ending_of_isTerminal {p : Phase} (h : p.isTerminal = true) (hc : p ≠ .cancelled) :
    ∃ k : Ending, p = k.phase := by
  cases p with
  | completed => exact ⟨.completed, rfl⟩
  | failed => exact ⟨.failed, rfl⟩
  | cancelled => exact absurd rfl hc
  | _ => cases h

/-- What a control call makes of a phase, if it is valid. -/
def control? (kind : Kind) (p : Phase) : Control → Option Phase
  | .start => p.begin?
  | .pause => p.pause? kind
  | .resume => p.resume?
  | .cancel => p.cancel?

/-- The transitions that control calls make. -/
inductive Turn (kind : Kind) : Control → Phase → Phase → Prop where
  | start : Turn kind .start .created .started
  /-- An operation can be paused before its request is out, -/
  | hold : Turn kind .pause .started (.paused .started)
  /-- and a stream also after that. -/
  | pause (stream : kind = .stream) : Turn kind .pause .running (.paused .running)
  | resume (back : Resumption) : Turn kind .resume (.paused back) back.phase
  | cancel {p : Phase} (open' : p.isTerminal = false) : Turn kind .cancel p .cancelled

/-- Control calls make these transitions and no others. -/
theorem turn_iff {kind : Kind} {c : Control} {p q : Phase} :
    p.control? kind c = some q ↔ Turn kind c p q := by
  constructor
  · intro h
    cases c with
    | start =>
        cases p with
        | created => cases h; exact .start
        | _ => cases h
    | pause =>
        cases p with
        | started => cases h; exact .hold
        | running =>
            simp only [control?, pause?] at h
            split at h
            · next hs => cases h; exact .pause hs
            · cases h
        | _ => cases h
    | resume =>
        cases p with
        | paused back => cases h; exact .resume back
        | _ => cases h
    | cancel =>
        simp only [control?, cancel?] at h
        split at h
        · cases h
        · next hp => cases h; exact .cancel (by simpa using hp)
  · intro h
    cases h with
    | start | hold | resume => rfl
    | pause hs => simp [control?, pause?, hs]
    | cancel hp => simp [control?, cancel?, hp]

/-- Once an operation is over, no control call is valid. -/
theorem control?_of_isTerminal {p : Phase} (h : p.isTerminal = true) (kind : Kind)
    (c : Control) : p.control? kind c = none := by
  cases hq : p.control? kind c with
  | none => rfl
  | some q =>
      cases turn_iff.1 hq with
      | cancel hp => rw [h] at hp; cases hp
      | _ => cases h

variable {kind : Kind} {c : Control} {p q : Phase}

/-- No control call completes an operation, or lets it fail. -/
theorem Turn.ne_ending (h : Turn kind c p q) (k : Ending) : q ≠ k.phase := by
  cases h with
  | resume back => cases back <;> cases k <;> simp [Resumption.phase, Ending.phase]
  | _ => cases k <;> simp [Ending.phase]

/-- What a control call changes was not over. -/
theorem Turn.isTerminal_eq_false (h : Turn kind c p q) : p.isTerminal = false := by
  cases h with
  | cancel hp => exact hp
  | _ => rfl

/-- No control call sets an operation back. -/
theorem Turn.rank_le (h : Turn kind c p q) : p.rank ≤ q.rank := by
  cases h with
  | resume back => cases back <;> decide
  | cancel hp => cases p <;> first | decide | (rename_i back; cases back <;> decide)
  | _ => decide

/-- A valid cancellation leads to one phase only. -/
theorem Turn.eq_cancelled (h : Turn kind .cancel p q) : q = .cancelled := by
  cases h; rfl

/-- Nothing else leads there, -/
theorem Turn.ne_cancelled (h : Turn kind c p q) (hc : c ≠ .cancel) : q ≠ .cancelled := by
  cases h with
  | cancel => exact absurd rfl hc
  | resume back => cases back <;> decide
  | _ => decide

/-- and nothing leads away from there. -/
theorem Turn.source_ne_cancelled (h : Turn kind c p q) : p ≠ .cancelled := by
  rintro rfl
  cases h.isTerminal_eq_false

/-- A control call that is valid changes the phase. -/
theorem Turn.ne (h : Turn kind c p q) : q ≠ p := by
  cases h with
  | resume back => cases back <;> simp [Resumption.phase]
  | cancel hp => rintro rfl; cases hp
  | _ => simp

/-! ## Passages -/

/-- The passages from phase to phase, whoever makes them. -/
inductive Leads (kind : Kind) : Phase → Phase → Prop where
  | stay (p : Phase) : Leads kind p p
  | turn {c : Control} {p q : Phase} (turn : Turn kind c p q) : Leads kind p q
  | enter : Leads kind .started .running
  | finish {q : Phase} (isTerminal : q.isTerminal = true) : Leads kind .running q

theorem Leads.rank_le (h : Leads kind p q) : p.rank ≤ q.rank := by
  cases h with
  | stay => exact Nat.le_refl _
  | turn ht => exact ht.rank_le
  | enter => decide
  | finish ht => cases q <;> first | decide | cases ht

/-- No passage leads out of a phase that is over. -/
theorem Leads.of_isTerminal (h : Leads kind p q) (hp : p.isTerminal = true) : q = p := by
  cases h with
  | stay => rfl
  | turn ht => rw [ht.isTerminal_eq_false] at hp; cases hp
  | enter | finish => cases hp

/-- Whether an operation is on its way or over, and not held up. -/
def isRunningOrOver (p : Phase) : Bool := p == .running || p.isTerminal

theorem isTerminal_of_isRunningOrOver (h : p.isRunningOrOver = true) (hr : p ≠ .running) :
    p.isTerminal = true := by
  cases p with
  | running => exact absurd rfl hr
  | completed | cancelled | failed => rfl
  | _ => cases h

/-- An operation with one response can not be held up once it runs. -/
theorem Leads.isRunningOrOver (h : Leads .single p q) (hp : p.isRunningOrOver = true) :
    q.isRunningOrOver = true := by
  cases h with
  | stay => exact hp
  | turn ht =>
      cases ht with
      | pause hs => cases hs
      | cancel => rfl
      | _ => cases hp
  | enter => rfl
  | finish ht => simp [Phase.isRunningOrOver, ht]

end Phase

/-! ## Gates -/

namespace Gate

variable {τ η : Type}

@[simp] theorem kind_set (g : Gate τ η) (p : Phase) : (g.set p).kind = g.kind := rfl

@[simp] theorem phase_set (g : Gate τ η) (p : Phase) : (g.set p).phase = p := rfl

@[simp] theorem version_set (g : Gate τ η) (p : Phase) : (g.set p).version = g.version + 1 := rfl

/-- A control call is a turn of the phase, and one more change. -/
theorem control?_eq (g : Gate τ η) (c : Control) :
    g.control? c = (g.phase.control? g.kind c).map g.set := by
  cases c <;> rfl

end Gate

/-! ## The rest of a call -/

/-- Where a step of a call can take the worker.  It is handed over or let go, and told to
stop only once it was handed over. -/
inductive Seat.Leads : Seat → Seat → Prop where
  | stay (s : Seat) : Leads s s
  | spawn : Leads .held .spawned
  | abort : Leads .spawned .aborting
  | release : Leads .held .released

theorem Seat.Leads.isTaken {s s' : Seat} (h : s.Leads s') (ht : s.isTaken = true) :
    s'.isTaken = true := by
  cases h with
  | stay => exact ht
  | abort => rfl
  | spawn | release => cases ht

/-- A worker that is out of its seat does not come back. -/
theorem Seat.Leads.eq_held {s : Seat} (h : s.Leads .held) : s = .held := by
  cases h
  rfl

namespace Controller

@[simp] theorem gate_abort (c : Controller) (t : Option Unit) : (c.abort t).gate = c.gate := by
  cases t <;> rfl

/-- What a step of the rest of a call leaves as it is: the gate but for the task and the
hook, and the worker in its seat once it has one. -/
structure KeepsPhase (c c' : Controller) : Prop where
  gate : ∃ task hook, c'.gate = { c.gate with task, hook }
  seat : c.seat.Leads c'.seat

theorem KeepsPhase.refl (c : Controller) : KeepsPhase c c :=
  ⟨⟨c.gate.task, c.gate.hook, rfl⟩, .stay _⟩

theorem KeepsPhase.phase_eq {c c' : Controller} (h : KeepsPhase c c') :
    c'.gate.phase = c.gate.phase := by
  obtain ⟨task, hook, hg⟩ := h.gate
  rw [hg]

theorem KeepsPhase.kind_eq {c c' : Controller} (h : KeepsPhase c c') :
    c'.gate.kind = c.gate.kind := by
  obtain ⟨task, hook, hg⟩ := h.gate
  rw [hg]

theorem KeepsPhase.version_eq {c c' : Controller} (h : KeepsPhase c c') :
    c'.gate.version = c.gate.version := by
  obtain ⟨task, hook, hg⟩ := h.gate
  rw [hg]

/-- The calls under way are no part of it. -/
theorem KeepsPhase.withPursuits {c c' : Controller} (h : KeepsPhase c c')
    (pursuits : List Pursuit) :
    KeepsPhase c { c' with pursuits } :=
  ⟨h.gate, h.seat⟩

theorem leads_abort (c : Controller) (t : Option Unit) : c.seat.Leads (c.abort t).seat := by
  cases t with
  | none => exact .stay _
  | some _ =>
      simp only [abort]
      split
      · next hs => rw [hs]; exact .abort
      · exact .stay _

theorem KeepsPhase.takeTask (c : Controller) :
    KeepsPhase c ({ c with gate := c.gate.takeTask.1 }.abort c.gate.takeTask.2) := by
  refine ⟨⟨c.gate.takeTask.1.task, c.gate.hook, ?_⟩,
    leads_abort { c with gate := c.gate.takeTask.1 } _⟩
  simp only [gate_abort, Gate.takeTask]
  split <;> rfl

theorem pursue_keepsPhase (c : Controller) (p : Pursuit) : KeepsPhase c (c.pursue p).1 := by
  cases p with
  | spawn =>
      simp only [pursue]
      split
      · next hs => exact ⟨⟨c.gate.task, c.gate.hook, rfl⟩, by rw [hs]; exact .spawn⟩
      · exact .refl c
  | keep =>
      refine ⟨⟨(c.gate.storeTask ()).task, c.gate.hook, ?_⟩, .stay _⟩
      simp only [pursue, Gate.storeTask]
      split <;> rfl
  | recheck => exact .refl c
  | retract | abort => exact .takeTask c
  | hook => exact ⟨⟨c.gate.task, none, rfl⟩, .stay _⟩
  | release =>
      refine ⟨⟨c.gate.task, c.gate.hook, rfl⟩, ?_⟩
      simp only [pursue]
      split
      · next hs => rw [hs]; exact .release
      · exact .stay _

/-- What anyone can do to a controller: the rest of a call, or a passage of the phase. -/
inductive Successor (c c' : Controller) : Prop where
  | keeps (keeps : KeepsPhase c c')
  | set {q : Phase} (pursuits : List Pursuit) (leads : Phase.Leads c.gate.kind c.gate.phase q)
      (eq : c' = { c with gate := c.gate.set q, pursuits })

theorem Successor.kind_eq {c c' : Controller} (h : Successor c c') :
    c'.gate.kind = c.gate.kind := by
  cases h with
  | keeps hk => exact hk.kind_eq
  | set _ _ he => rw [he]; rfl

theorem Successor.seat {c c' : Controller} (h : Successor c c') : c.seat.Leads c'.seat := by
  cases h with
  | keeps hk => exact hk.seat
  | set _ _ he => rw [he]; exact .stay _

theorem advance_keepsPhase (c : Controller) (i : Nat) : KeepsPhase c (c.advance i).1 := by
  unfold advance
  split
  · exact .refl c
  · next p _ => exact (c.pursue_keepsPhase p).withPursuits _

/-- A call that is made now does nothing unless it is valid. -/
theorem enact_cases (c : Controller) (control : Control) :
    c.enact control = (c, false, none) ∨
      ∃ q, Phase.Turn c.gate.kind control c.gate.phase q ∧
        c.enact control = ({ c with gate := c.gate.set q }, true, control.next?) := by
  unfold enact
  rw [Gate.control?_eq]
  cases hq : c.gate.phase.control? c.gate.kind control with
  | none => exact .inl rfl
  | some q => exact .inr ⟨q, Phase.turn_iff.1 hq, rfl⟩

/-- Once an operation is over, no call is valid. -/
theorem enact_of_isTerminal {c : Controller} (h : c.gate.phase.isTerminal = true)
    (control : Control) : c.enact control = (c, false, none) := by
  unfold enact
  rw [Gate.control?_eq, Phase.control?_of_isTerminal h]
  rfl

/-- A call that is valid has more to do after the calls that are under way. -/
theorem call_cases (c : Controller) (control : Control) :
    c.call control = (c, false) ∨
      ∃ q, Phase.Turn c.gate.kind control c.gate.phase q ∧
        c.call control =
          ({ c with gate := c.gate.set q, pursuits := c.pursuits ++ control.next?.toList },
            true) := by
  rcases c.enact_cases control with hc | ⟨q, hq, hc⟩
  · left; simp [call, hc]
  · right; exact ⟨q, hq, by simp only [call, hc]⟩

theorem call_of_invalid {c : Controller} {control : Control} (h : (c.call control).2 = false) :
    (c.call control).1 = c := by
  rcases c.call_cases control with hc | ⟨q, -, hc⟩
  · rw [hc]
  · rw [hc] at h; cases h

theorem call_snd (c : Controller) (control : Control) :
    (c.call control).2 = (c.enact control).2.1 := rfl

end Controller

/-! ## Calls on an operation -/

namespace Operation

variable {α : Type}

/-- After a step of a call the operation has another controller, and it has given up
its subscription if the hook ran. -/
theorem follow_fst (op : Operation α) (c : Controller) (hook : Bool) :
    (op.follow c hook).1 =
      { op with controller := c, slot := if hook then none else op.slot } := by
  cases hook <;> rfl

/-- A call from elsewhere does nothing, or it turns the phase. -/
theorem step_control (plan : Plan α) (op : Operation α) (c : Control) :
    (op.step plan (.control c)).1 = op ∨
      op.isHearing = false ∧ ∃ q pursuits, Phase.Turn op.gate.kind c op.phase q ∧
        (op.step plan (.control c)).1 =
          { op with controller := { op.controller with gate := op.gate.set q, pursuits } } := by
  simp only [step]
  cases hh : op.isHearing with
  | true => exact .inl rfl
  | false =>
      rcases op.controller.call_cases c with hc | ⟨q, hq, hc⟩
      · left
        rw [hc]
        rfl
      · right
        exact ⟨rfl, q, _, hq, by rw [hc]; rfl⟩

/-- A step of a call leaves the worker's side of an operation as it is. -/
theorem step_pursue (plan : Plan α) (op : Operation α) (i : Nat) :
    ∃ controller slot, op.controller.KeepsPhase controller ∧
      (op.step plan (.pursue i)).1 = { op with controller, slot } := by
  simp only [step]
  split
  · exact ⟨op.controller, op.slot, .refl _, rfl⟩
  · exact ⟨_, _, op.controller.advance_keepsPhase i, follow_fst ..⟩

/-- The listener makes a call. -/
theorem hear_call (op : Operation α) (c : Control) (rest : List Control) (seen : Option Nat) :
    op.hear (c :: rest) seen none =
      ({ op with
        controller := (op.controller.enact c).1
        notices := op.notices.modify (op.notices.length - 1)
          (Notice.add · (op.controller.enact c).2.1)
        stage := .hearing (op.controller.enact c).2.2 rest seen }, []) := rfl

/-- The listener goes on with a call that is under way. -/
theorem hear_some (op : Operation α) (todo : List Control) (seen : Option Nat) (p : Pursuit) :
    ∃ controller slot next, op.controller.KeepsPhase controller ∧
      (op.hear todo seen (some p)).1 =
        { op with controller, slot, stage := .hearing next todo seen } :=
  ⟨_, _, _, op.controller.pursue_keepsPhase p, follow_fst ..⟩

end Operation
end Switchboard
