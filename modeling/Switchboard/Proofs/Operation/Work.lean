import Switchboard.Proofs.Operation.Control

/-!
# Switchboard.Proofs.Operation.Work

The steps of a worker as a relation.  `Work plan op r` has one case for each thing a
worker can do, with all that has to hold for it, so that a property of every step is
proved by cases and no proof has to open the worker again.

* `offer_of_running`, `offer_of_ne_running` — an event gets through while the operation
  runs, and only then;
* `Work` — the steps;
* `work?_iff` — the worker takes these steps and no others.
-/

namespace Switchboard

/-! ## Outcomes at the gate -/

namespace Gate

theorem outcome_of_isTerminal {p : Phase} (h : p.isTerminal = true) : outcome p = .closed := by
  cases p with
  | completed | cancelled | failed => rfl
  | _ => cases h

theorem outcome_of_waiting {p : Phase} (hr : p ≠ .running) (h : p.isTerminal = false) :
    outcome p = .deferred := by
  cases p with
  | running => exact absurd rfl hr
  | created | started | paused => rfl
  | _ => cases h

theorem outcome_ne_delivered {p : Phase} (h : p ≠ .running) : outcome p ≠ .delivered := by
  cases ht : p.isTerminal with
  | true => rw [outcome_of_isTerminal ht]; decide
  | false => rw [outcome_of_waiting h ht]; decide

variable {τ η : Type}

/-- A worker that gets no answer changes nothing. -/
theorem tryEnter_none {g g' : Gate τ η} (h : g.tryEnter = (g', none)) : g' = g := by
  unfold tryEnter at h
  split at h <;> cases h <;> rfl

/-- A worker gets no answer while the operation is not started or paused. -/
theorem phase_of_tryEnter_none {g g' : Gate τ η} (h : g.tryEnter = (g', none)) :
    g.phase = .created ∨ ∃ back, g.phase = .paused back := by
  unfold tryEnter at h
  split at h
  · cases h
  · cases h
  · next hp => exact .inl hp
  · next back hp => exact .inr ⟨back, hp⟩
  · cases h

/-- A worker that may go on runs after that. -/
theorem tryEnter_true {g g' : Gate τ η} (h : g.tryEnter = (g', some true)) :
    g.phase = .started ∧ g' = g.set .running ∨ g.phase = .running ∧ g' = g := by
  unfold tryEnter at h
  split at h
  · next hp => cases h; exact .inl ⟨hp, rfl⟩
  · next hp => cases h; exact .inr ⟨hp, rfl⟩
  · cases h
  · cases h
  · cases h

/-- A worker is refused when the operation is over. -/
theorem isTerminal_of_tryEnter {g g' : Gate τ η} (h : g.tryEnter = (g', some false)) :
    g.phase.isTerminal = true := by
  unfold tryEnter at h
  split at h
  · cases h
  · cases h
  · cases h
  · cases h
  · cases hp : g.phase <;> simp_all [Phase.isTerminal]

theorem tryEnter_of_isTerminal {g : Gate τ η} (h : g.phase.isTerminal = true) :
    g.tryEnter = (g, some false) := by
  unfold tryEnter
  split <;> simp_all [Phase.isTerminal]

end Gate

namespace Operation

variable {α : Type}

/-! ## Handing an event over -/

/-- The operation when the gate lets an event through: its last one ends it. -/
def accept (op : Operation α) (e : Event α) : Operation α :=
  op.withGate (e.ending?.elim op.gate fun k => op.gate.set k.phase)

@[simp] theorem heard_notify (plan : Plan α) (op : Operation α) (e : Event α)
    (seen : Option Nat) : (op.notify plan e seen).heard = op.heard ++ [e] := by
  simp [heard, notify]

/-- While an operation runs, an event gets through. -/
theorem offer_of_running (plan : Plan α) {op : Operation α} (h : op.phase = .running)
    (e : Event α) (seen : Option Nat) :
    op.offer plan e seen = ((op.accept e).notify plan e seen, .delivered) := by
  have ho : Gate.outcome op.gate.phase = .delivered := congrArg Gate.outcome h
  unfold offer accept
  cases he : e.ending? with
  | none => simp only [Gate.deliver, ho]; rfl
  | some k => simp only [Gate.finish, ho]; rfl

/-- While it does not, no event gets through and nothing changes. -/
theorem offer_of_ne_running (plan : Plan α) {op : Operation α} (h : op.phase ≠ .running)
    (e : Event α) (seen : Option Nat) :
    op.offer plan e seen = (op, Gate.outcome op.phase) := by
  have ho : Gate.outcome op.gate.phase ≠ .delivered := Gate.outcome_ne_delivered h
  unfold offer
  cases he : e.ending? with
  | none =>
      simp only [Gate.deliver]
      cases hd : Gate.outcome op.gate.phase with
      | delivered => exact absurd hd ho
      | _ => simp [phase, hd]
  | some k =>
      simp only [Gate.finish]
      cases hd : Gate.outcome op.gate.phase with
      | delivered => exact absurd hd ho
      | _ => simp [phase, hd]

/-! ## The steps -/

/-- The steps of a worker: what each leads to and asks for. -/
inductive Work (plan : Plan α) (op : Operation α) : Operation α × List Demand → Prop where
  /-- It stops because it is told to. -/
  | stop (stage : stopsAt op.stage = true) (seat : op.controller.seat = .aborting) :
      Work plan op (op.goto .finished, [])
  | look (stage : op.stage = .arriving) (seat : op.controller.seat ≠ .aborting) :
      Work plan op (op.goto (.checking op.gate.version), [])
  /-- There was a change. -/
  | lookAgain {seen : Nat} (stage : op.stage = .waiting seen)
      (seat : op.controller.seat ≠ .aborting) (changed : seen ≠ op.gate.version) :
      Work plan op (op.goto (.checking op.gate.version), [])
  /-- It may go on. -/
  | enter {seen : Nat} (stage : op.stage = .checking seen) {g : Gate Unit Unit}
      (entered : op.gate.tryEnter = (g, some true)) :
      Work plan op ((op.withGate g).goto .admitted, [])
  | refuse {seen : Nat} (stage : op.stage = .checking seen)
      (isTerminal : op.phase.isTerminal = true) : Work plan op (op.goto .finished, [])
  | wait {seen : Nat} (stage : op.stage = .checking seen)
      (waits : op.gate.tryEnter = (op.gate, none)) : Work plan op (op.goto (.waiting seen), [])
  /-- It asks for what the call needs, and does not look at the phase again. -/
  | send (stage : op.stage = .admitted) (kind : plan.kind = .single) :
      Work plan op (op.goto .sending, [.send])
  | register (stage : op.stage = .admitted) (kind : plan.kind = .stream) :
      Work plan op (op.goto .registering, [.register])
  /-- The answer gets through. -/
  | report {r : Except ApiError α} (stage : op.stage = .answered r)
      (running : op.phase = .running) :
      Work plan op ((op.accept (answerEvent r)).notify plan (answerEvent r) none, [])
  /-- The answer does not get through. -/
  | drop {r : Except ApiError α} (stage : op.stage = .answered r)
      (running : op.phase ≠ .running) : Work plan op (op.goto .finished, [])
  | store {id : String} (stage : op.stage = .storing id) :
      Work plan op ({ op with slot := some id, stage := .confirming id }, [])
  /-- The operation was cancelled before its subscription was registered. -/
  | giveUp {id : String} (stage : op.stage = .confirming id)
      (isTerminal : op.phase.isTerminal = true) : Work plan op (op.goto .closing, [])
  | establish {id : String} (stage : op.stage = .confirming id)
      (isTerminal : op.phase.isTerminal = false) :
      Work plan op
        ({ op with pending := op.pending ++ [.established id], stage := .watching }, [])
  | watch (stage : op.stage = .watching) :
      Work plan op (op.goto (.flushing op.gate.version), [])
  /-- The first pending event gets through. -/
  | deliver {seen : Nat} (stage : op.stage = .flushing seen) {e : Event α}
      {rest : List (Event α)} (pending : op.pending = e :: rest)
      (running : op.phase = .running) :
      Work plan op
        (({ op with pending := rest }.accept e).notify plan e (some seen), [])
  /-- Nothing is pending, or it has to wait. -/
  | settle {seen : Nat} (stage : op.stage = .flushing seen)
      (waits : op.pending = [] ∨ op.phase ≠ .running ∧ op.phase.isTerminal = false) :
      Work plan op (op.goto (.deciding seen), [])
  /-- What is pending does not get through any more. -/
  | shut {seen : Nat} (stage : op.stage = .flushing seen) (pending : op.pending ≠ [])
      (isTerminal : op.phase.isTerminal = true) : Work plan op (op.goto .closing, [])
  /-- The listener goes on with a control call. -/
  | pursue {p : Pursuit} {todo : List Control} {seen : Option Nat}
      (stage : op.stage = .hearing (some p) todo seen) :
      Work plan op (op.hear todo seen (some p))
  /-- The listener makes a control call. -/
  | call {control : Control} {rest : List Control} {seen : Option Nat}
      (stage : op.stage = .hearing none (control :: rest) seen) :
      Work plan op (op.hear (control :: rest) seen none)
  /-- The listener is done. -/
  | heard {seen : Option Nat} (stage : op.stage = .hearing none [] seen) :
      Work plan op (op.hear [] seen none)
  | leave {seen : Nat} (stage : op.stage = .deciding seen)
      (done : op.phase.isTerminal = true ∨ op.listening = false ∧ op.pending = []) :
      Work plan op (op.goto .closing, [])
  | await {seen : Nat} (stage : op.stage = .deciding seen)
      (isTerminal : op.phase.isTerminal = false)
      (more : op.listening = true ∨ op.pending ≠ []) :
      Work plan op (op.goto (.selecting seen), [])
  /-- A message is there. -/
  | take {seen : Nat} (stage : op.stage = .selecting seen) (listening : op.listening = true)
      {m : StreamMessage} {rest : List StreamMessage} (inbox : op.inbox = m :: rest) :
      Work plan op
        ({ op with
          inbox := rest, pending := op.pending ++ [m.toEvent plan.decode],
          stage := .flushing seen }, [])
  /-- No more messages can come. -/
  | turnAway {seen : Nat} (stage : op.stage = .selecting seen) (listening : op.listening = true)
      (inbox : op.inbox = []) (inboxOpen : op.inboxOpen = false) :
      Work plan op ({ op with listening := false, stage := .flushing seen }, [])
  /-- There was a change. -/
  | flushAgain {seen : Nat} (stage : op.stage = .selecting seen)
      (changed : seen ≠ op.gate.version) :
      Work plan op (op.goto (.flushing op.gate.version), [])
  | close {id : String} (stage : op.stage = .closing) (slot : op.slot = some id) :
      Work plan op ({ op with slot := none, stage := .unregistering id }, [.unregister id])
  | finish (stage : op.stage = .closing) (slot : op.slot = none) :
      Work plan op (op.goto .finished, [])

/-! ## Each stage -/

variable {plan : Plan α} {op : Operation α} {r : Operation α × List Demand}

theorem report_of_running {a : Except ApiError α} (h : op.phase = .running) :
    op.report plan a = (op.accept (answerEvent a)).notify plan (answerEvent a) none := by
  unfold report
  rw [offer_of_running plan h]

theorem report_of_ne_running {a : Except ApiError α} (h : op.phase ≠ .running) :
    op.report plan a = op.goto .finished := by
  unfold report
  rw [offer_of_ne_running plan h]
  cases ho : Gate.outcome op.phase with
  | delivered => exact absurd ho (Gate.outcome_ne_delivered h)
  | deferred | closed => rfl

theorem flush_nil {seen : Nat} (h : op.pending = []) :
    op.flush plan seen = op.goto (.deciding seen) := by
  unfold flush
  rw [h]

theorem flush_of_running {seen : Nat} {e : Event α} {rest : List (Event α)}
    (hq : op.pending = e :: rest) (h : op.phase = .running) :
    op.flush plan seen = ({ op with pending := rest }.accept e).notify plan e (some seen) := by
  unfold flush
  rw [hq]
  have hp : ({ op with pending := rest } : Operation α).phase = .running := h
  simp only [offer_of_running plan hp]

theorem flush_of_isTerminal {seen : Nat} (hq : op.pending ≠ []) (h : op.phase.isTerminal = true) :
    op.flush plan seen = op.goto .closing := by
  have hp : op.phase ≠ .running := fun hr => by rw [hr] at h; cases h
  have ho : Gate.outcome op.phase = .closed := Gate.outcome_of_isTerminal h
  unfold flush
  split
  · next hn => exact absurd hn hq
  · next e rest _ =>
    have hp' : ({ op with pending := rest } : Operation α).phase ≠ .running := hp
    have ho' : Gate.outcome ({ op with pending := rest } : Operation α).phase = _ := ho
    rw [offer_of_ne_running plan hp', ho']

theorem flush_of_waiting {seen : Nat} (hp : op.phase ≠ .running)
    (h : op.phase.isTerminal = false) : op.flush plan seen = op.goto (.deciding seen) := by
  have ho : Gate.outcome op.phase = .deferred := Gate.outcome_of_waiting hp h
  unfold flush
  split
  · rfl
  · next e rest _ =>
    have hp' : ({ op with pending := rest } : Operation α).phase ≠ .running := hp
    have ho' : Gate.outcome ({ op with pending := rest } : Operation α).phase = _ := ho
    rw [offer_of_ne_running plan hp', ho']

theorem work_check {seen : Nat} (hs : op.stage = .checking seen) :
    Work plan op (op.check seen, []) := by
  unfold check
  cases ht : op.gate.tryEnter with
  | mk g answer =>
      cases answer with
      | none =>
          have hg : g = op.gate := op.gate.tryEnter_none ht
          exact .wait hs (hg ▸ ht)
      | some b =>
          cases b with
          | true => exact .enter hs ht
          | false => exact .refuse hs (op.gate.isTerminal_of_tryEnter ht)

theorem work_embark (hs : op.stage = .admitted) : Work plan op (op.embark plan) := by
  unfold embark
  cases hk : plan.kind with
  | single => exact .send hs hk
  | stream => exact .register hs hk

theorem work_report {a : Except ApiError α} (hs : op.stage = .answered a) :
    Work plan op (op.report plan a, []) := by
  by_cases hp : op.phase = .running
  · rw [report_of_running hp]; exact .report hs hp
  · rw [report_of_ne_running hp]; exact .drop hs hp

theorem work_flush {seen : Nat} (hs : op.stage = .flushing seen) :
    Work plan op (op.flush plan seen, []) := by
  cases hq : op.pending with
  | nil => rw [flush_nil hq]; exact .settle hs (.inl hq)
  | cons e rest =>
      by_cases hp : op.phase = .running
      · rw [flush_of_running hq hp]; exact .deliver hs hq hp
      · cases ht : op.phase.isTerminal with
        | true =>
            have hne : op.pending ≠ [] := by simp [hq]
            rw [flush_of_isTerminal hne ht]
            exact .shut hs hne ht
        | false => rw [flush_of_waiting hp ht]; exact .settle hs (.inr ⟨hp, ht⟩)

theorem work_decideNext {seen : Nat} (hs : op.stage = .deciding seen) :
    Work plan op (op.decideNext seen, []) := by
  unfold decideNext
  split
  · next h =>
    refine .leave hs ?_
    simpa using h
  · next h =>
    simp only [Bool.or_eq_true, Bool.and_eq_true, Bool.not_eq_true', List.isEmpty_iff,
      not_or, not_and] at h
    refine .await hs (by simpa using h.1) ?_
    cases hl : op.listening with
    | true => exact .inl rfl
    | false => exact .inr (h.2 hl)

theorem work_select {seen : Nat} (hs : op.stage = .selecting seen) {first : Bool}
    {op' : Operation α} (h : op.select? plan first seen = some op') :
    Work plan op (op', []) := by
  simp only [select?] at h
  split at h
  · next hc =>
    cases h
    have hl : op.listening = true := by
      have := hc.1
      simp only [canReceive, Bool.and_eq_true] at this
      exact this.1
    unfold receive
    split
    · next m rest hi => exact .take hs hl hi
    · next hi =>
      have ho : op.inboxOpen = false := by
        have := hc.1
        simpa [canReceive, hl, hi] using this
      exact .turnAway hs hl hi ho
  · split at h
    · next hv => cases h; exact .flushAgain hs (by simpa using hv)
    · cases h

theorem work_close (hs : op.stage = .closing) : Work plan op op.close := by
  unfold close
  cases hi : op.slot with
  | none => exact .finish hs hi
  | some id => exact .close hs hi

/-- A worker takes a step only if it runs, and then it is one of these. -/
theorem work_of_work? {first : Bool} (h : op.work? plan first = some r) :
    op.isSeated = true ∧ Work plan op r := by
  unfold work? at h
  split at h
  · cases h
  · next hseat =>
    refine ⟨by simpa using hseat, ?_⟩
    split at h
    · next hstop => cases h; exact .stop hstop.2 hstop.1
    · next hstop =>
      have haborting : stopsAt op.stage = true → op.controller.seat ≠ .aborting :=
        fun hs ha => hstop ⟨ha, hs⟩
      unfold workAt at h
      split at h
      · next hs => cases h; exact .look hs (haborting (by rw [hs]; rfl))
      · next hs => cases h; exact work_check hs
      · next hs => cases h; exact work_embark hs
      · next hs =>
        split at h
        · cases h
        · next hv => cases h; exact .lookAgain hs (haborting (by rw [hs]; rfl)) hv
      · next hs => cases h; exact work_report hs
      · next hs => cases h; exact .store hs
      · next hs =>
        split at h
        · next ht => cases h; exact .giveUp hs ht
        · next ht => cases h; exact .establish hs (by simpa using ht)
      · next hs => cases h; exact .watch hs
      · next hs => cases h; exact work_flush hs
      · next next todo _ hs =>
        cases h
        cases next with
        | some p => exact .pursue hs
        | none =>
            cases todo with
            | nil => exact .heard hs
            | cons control rest => exact .call hs
      · next hs => cases h; exact work_decideNext hs
      · next hs =>
        obtain ⟨op', hsel, rfl⟩ := Option.map_eq_some_iff.1 h
        exact work_select hs hsel
      · next hs => cases h; exact work_close hs
      · cases h
      · cases h
      · cases h
      · cases h

theorem work?_eq_workAt (hseat : op.isSeated = true)
    (h : stopsAt op.stage = true → op.controller.seat ≠ .aborting) (first : Bool) :
    op.work? plan first = op.workAt plan first op.stage := by
  unfold work?
  rw [if_neg (by simp [hseat]), if_neg (fun hc => h hc.2 hc.1)]

/-- A worker that runs can take each of these steps, if the choice between a change and
a message falls on it. -/
theorem Work.exists_work? (hseat : op.isSeated = true) (h : Work plan op r) :
    ∃ first, op.work? plan first = some r := by
  have hat : stopsAt op.stage = false → ∀ {first : Bool} {s : Stage α}, op.stage = s →
      op.workAt plan first s = some r → op.work? plan first = some r := by
    intro hstop first s hs hw
    rw [work?_eq_workAt hseat (by simp [hstop]), hs, hw]
  cases h with
  | stop hs ha =>
      refine ⟨false, ?_⟩
      unfold work?
      rw [if_neg (by simp [hseat]), if_pos ⟨ha, hs⟩]
  | look hs ha =>
      refine ⟨false, ?_⟩
      rw [work?_eq_workAt hseat (fun _ => ha), hs]
      rfl
  | lookAgain hs ha hv =>
      refine ⟨false, ?_⟩
      rw [work?_eq_workAt hseat (fun _ => ha), hs]
      simp [workAt, hv]
  | enter hs ht => exact ⟨false, hat (by rw [hs]; rfl) hs (by simp [workAt, check, ht])⟩
  | send hs hk | register hs hk =>
      exact ⟨false, hat (by rw [hs]; rfl) hs (by simp [workAt, embark, hk])⟩
  | refuse hs ht =>
      have he := op.gate.tryEnter_of_isTerminal ht
      exact ⟨false, hat (by rw [hs]; rfl) hs (by simp [workAt, check, he])⟩
  | wait hs hw => exact ⟨false, hat (by rw [hs]; rfl) hs (by simp [workAt, check, hw])⟩
  | report hs hp =>
      exact ⟨false, hat (by rw [hs]; rfl) hs (by rw [workAt, report_of_running hp])⟩
  | drop hs hp =>
      exact ⟨false, hat (by rw [hs]; rfl) hs (by rw [workAt, report_of_ne_running hp])⟩
  | giveUp hs ht => exact ⟨false, hat (by rw [hs]; rfl) hs (by simp [workAt, ht])⟩
  | establish hs ht => exact ⟨false, hat (by rw [hs]; rfl) hs (by simp [workAt, ht])⟩
  | store hs | watch hs | pursue hs | call hs | heard hs =>
      exact ⟨false, hat (by rw [hs]; rfl) hs rfl⟩
  | deliver hs hq hp =>
      exact ⟨false, hat (by rw [hs]; rfl) hs (by rw [workAt, flush_of_running hq hp])⟩
  | settle hs hw =>
      refine ⟨false, hat (by rw [hs]; rfl) hs ?_⟩
      rcases hw with hq | ⟨hp, ht⟩
      · rw [workAt, flush_nil hq]
      · rw [workAt, flush_of_waiting hp ht]
  | shut hs hq ht =>
      exact ⟨false, hat (by rw [hs]; rfl) hs (by rw [workAt, flush_of_isTerminal hq ht])⟩
  | leave hs hd => exact ⟨false, hat (by rw [hs]; rfl) hs (by simp [workAt, decideNext, hd])⟩
  | await hs ht hm =>
      refine ⟨false, hat (by rw [hs]; rfl) hs ?_⟩
      rcases hm with hm | hm <;> simp [workAt, decideNext, ht, hm]
  | take hs hl hi =>
      exact ⟨true, hat (by rw [hs]; rfl) hs
        (by simp [workAt, select?, canReceive, receive, hl, hi])⟩
  | turnAway hs hl hi ho =>
      exact ⟨true, hat (by rw [hs]; rfl) hs
        (by simp [workAt, select?, canReceive, receive, hl, hi, ho])⟩
  | flushAgain hs hv => exact ⟨false, hat (by rw [hs]; rfl) hs (by simp [workAt, select?, hv])⟩
  | close hs hi | finish hs hi =>
      exact ⟨false, hat (by rw [hs]; rfl) hs (by simp [workAt, Operation.close, hi])⟩

/-- The worker takes these steps and no others. -/
theorem work?_iff :
    (∃ first, op.work? plan first = some r) ↔ op.isSeated = true ∧ Work plan op r := by
  constructor
  · rintro ⟨first, h⟩
    exact work_of_work? h
  · rintro ⟨hseat, h⟩
    exact h.exists_work? hseat

/-- A move of the worker is one of its steps, or it has to wait. -/
theorem step_work (plan : Plan α) (op : Operation α) (first : Bool) :
    op.step plan (.work first) = (op, []) ∨
      op.isSeated = true ∧ Work plan op (op.step plan (.work first)) := by
  simp only [step]
  cases h : op.work? plan first with
  | none => exact .inl rfl
  | some r => exact .inr (work_of_work? h)

end Operation
end Switchboard
