import Switchboard.Proofs.Operation.History
import Switchboard.Proofs.Operation.SeatInvariant

/-!
# Switchboard.Proofs.Operation.EndingToCome

Why a worker does not leave before its operation is over.  As long as it is at work there
is something to come that will end the operation: a last event that is pending, a last
message in the inbox, or the prospect of one while the inbox is open.

* `HasEndingToCome` — there is something to come that ends a stream;
* `EndingToCome` — what there is to come at each stage of the worker;
* `WorkerInvariant` — this, with what is known of the worker's seat;
* `workerInvariant_step` — every move keeps it, unless it closes an inbox without a last message;
* `WorkerInvariant.hasWorker` — an operation that is started and not over has a worker;
* `EndedBy` — an operation with one response whose answer was heard, and ended it;
* `WorkerInvariant.endedBy_of_answered`, `WorkerInvariant.endedBy_of_sending` — an answer that
  comes is heard;
* `heard_of_isTerminal` — what has been heard of an operation that is over.
-/

namespace Switchboard.Operation

variable {α : Type} {plan : Plan α} {op op' : Operation α}

/-! ## What is to come -/

/-- The event of a last message is the last. -/
theorem isTerminal_toEvent (decode : Json → Except ApiError α) {m : StreamMessage}
    (h : m.isFinal = true) : (m.toEvent decode).isTerminal = true := by
  cases m with
  | next => cases h
  | errors | complete | lost => rfl

/-- A stream is over, or something is to come that ends it. -/
inductive HasEndingToCome (op : Operation α) : Prop where
  | ended (isTerminal : op.phase.isTerminal = true)
  | pending {e : Event α} (mem : e ∈ op.pending) (isTerminal : e.isTerminal = true)
  | inbox (listening : op.listening = true) {m : StreamMessage} (mem : m ∈ op.inbox)
      (isFinal : m.isFinal = true)
  /-- Messages can still come. -/
  | prospect (listening : op.listening = true) (inboxOpen : op.inboxOpen = true)

/-- A worker that takes no more messages, and has nothing to tell, is through because the
operation is over. -/
theorem HasEndingToCome.isTerminal (h : HasEndingToCome op) (hl : op.listening = false)
    (hp : op.pending = []) :
    op.phase.isTerminal = true := by
  cases h with
  | ended ht => exact ht
  | pending he => rw [hp] at he; cases he
  | inbox hl' | prospect hl' => rw [hl] at hl'; cases hl'

/-- What is to come at a stage of the worker. -/
def EndingToCome (plan : Plan α) (op : Operation α) : Stage α → Prop
  | .arriving | .checking _ | .waiting _ => plan.kind = .stream → HasEndingToCome op
  | .admitted =>
    (plan.kind = .single → op.phase.isRunningOrOver = true) ∧
      (plan.kind = .stream → HasEndingToCome op)
  -- an operation with one response cannot be held up once it runs
  | .sending | .answered _ => plan.kind = .single ∧ op.phase.isRunningOrOver = true
  | .hearing _ _ none | .closing | .unregistering _ | .finished => op.phase.isTerminal = true
  | _ => plan.kind = .stream ∧ HasEndingToCome op

/-- At every stage there is something to come that ends a stream. -/
theorem EndingToCome.hasEndingToCome {s : Stage α} (h : EndingToCome plan op s)
    (hk : plan.kind = .stream) :
    HasEndingToCome op := by
  cases s with
  | arriving | checking _ | waiting _ => exact h hk
  | admitted => exact h.2 hk
  | sending | answered _ => cases hk.symm.trans h.1
  | hearing _ _ seen =>
      cases seen with
      | none => exact .ended h
      | some _ => exact h.2
  | closing | unregistering _ | finished => exact .ended h
  | _ => exact h.2

/-- It does not matter what the listener is doing. -/
theorem EndingToCome.hearing {next next' : Option Pursuit} {todo todo' : List Control}
    {seen : Option Nat} (h : EndingToCome plan op (.hearing next todo seen)) :
    EndingToCome plan op (.hearing next' todo' seen) := by
  cases seen <;> exact h

/-- Nothing is taken from what is to come. -/
structure KeepsEnding (op op' : Operation α) : Prop where
  effect : Effect op op'
  pending : op.pending <+: op'.pending
  inbox : op.inbox <+: op'.inbox
  inboxOpen : op'.inboxOpen = op.inboxOpen
  listening : op'.listening = op.listening

theorem KeepsEnding.goto (op : Operation α) (s : Stage α) : KeepsEnding op (op.goto s) :=
  ⟨.quiet rfl rfl rfl, List.prefix_rfl, List.prefix_rfl, rfl, rfl⟩

theorem KeepsEnding.isTerminal (hs : KeepsEnding op op') (h : op.phase.isTerminal = true) :
    op'.phase.isTerminal = true := by
  rw [(hs.effect.of_isTerminal h).1]
  exact h

/-- Nobody can hold up an operation with one response that runs. -/
theorem KeepsEnding.isRunningOrOver (hs : KeepsEnding op op') (hk : op.gate.kind = .single)
    (h : op.phase.isRunningOrOver = true) : op'.phase.isRunningOrOver = true := by
  have hl := hs.effect.leads
  rw [hk] at hl
  exact hl.isRunningOrOver h

theorem HasEndingToCome.frame (h : HasEndingToCome op) (hs : KeepsEnding op op') :
    HasEndingToCome op' := by
  cases h with
  | ended ht => exact .ended (hs.isTerminal ht)
  | pending he ht => exact .pending (hs.pending.subset he) ht
  | inbox hl hm hf => exact .inbox (hs.listening.trans hl) (hs.inbox.subset hm) hf
  | prospect hl ho => exact .prospect (hs.listening.trans hl) (hs.inboxOpen.trans ho)

theorem EndingToCome.frame {s : Stage α} (h : EndingToCome plan op s)
    (hkind : op.gate.kind = plan.kind)
    (hs : KeepsEnding op op') : EndingToCome plan op' s := by
  cases s with
  | arriving | checking _ | waiting _ => exact fun hk => (h hk).frame hs
  | admitted =>
    exact ⟨fun hk => hs.isRunningOrOver (hkind.trans hk) (h.1 hk), fun hk => (h.2 hk).frame hs⟩
  | sending | answered _ => exact ⟨h.1, hs.isRunningOrOver (hkind.trans h.1) h.2⟩
  | hearing _ _ seen =>
      cases seen with
      | none => exact hs.isTerminal h
      | some _ => exact ⟨h.1, h.2.frame hs⟩
  | closing | unregistering _ | finished => exact hs.isTerminal h
  | _ => exact ⟨h.1, h.2.frame hs⟩

/-! ## Steps of the worker -/

/-- The last event ends an operation when it gets through. -/
theorem isTerminal_accept (op : Operation α) {e : Event α} (h : e.isTerminal = true) :
    (op.accept e).phase.isTerminal = true := by
  obtain ⟨k, hk⟩ := Event.isTerminal_iff.1 h
  simp [accept, withGate, phase, gate, hk]

/-- The first pending event goes to the listener; if it was the last, the operation is over. -/
theorem HasEndingToCome.hear (h : HasEndingToCome op) {e : Event α} {rest : List (Event α)}
    (hq : op.pending = e :: rest) (hp : op.phase = .running) (seen : Option Nat) :
    HasEndingToCome (({ op with pending := rest }.accept e).notify plan e seen) := by
  cases h with
  | ended ht => rw [hp] at ht; cases ht
  | @pending x hx ht =>
      rw [hq] at hx
      rcases List.mem_cons.1 hx with rfl | hx
      · exact .ended (isTerminal_accept _ ht)
      · exact .pending hx ht
  | inbox hl hm hf => exact .inbox hl hm hf
  | prospect hl ho => exact .prospect hl ho

/-- The first message of the inbox becomes pending. -/
theorem HasEndingToCome.take (h : HasEndingToCome op) {m : StreamMessage}
    {rest : List StreamMessage}
    (hi : op.inbox = m :: rest) (s : Stage α) :
    HasEndingToCome
      { op with
        inbox := rest, pending := op.pending ++ [m.toEvent plan.decode], stage := s } := by
  cases h with
  | ended ht => exact .ended ht
  | pending he ht => exact .pending (List.mem_append_left _ he) ht
  | @inbox hl x hx hf =>
      rw [hi] at hx
      rcases List.mem_cons.1 hx with rfl | hx
      · exact .pending (List.mem_append_right _ List.mem_cons_self) (isTerminal_toEvent _ hf)
      · exact .inbox hl hx hf
  | prospect hl ho => exact .prospect hl ho

/-- The worker learns that no message will come, so it is not messages that it relies on. -/
theorem HasEndingToCome.turnAway (h : HasEndingToCome op) (hi : op.inbox = [])
    (ho : op.inboxOpen = false)
    (s : Stage α) : HasEndingToCome { op with listening := false, stage := s } := by
  cases h with
  | ended ht => exact .ended ht
  | pending he ht => exact .pending he ht
  | inbox _ hm => rw [hi] at hm; cases hm
  | prospect _ ho' => rw [ho] at ho'; cases ho'

/-- When a last message has come, the inbox can be closed. -/
theorem HasEndingToCome.hangUp (h : HasEndingToCome op) {m : StreamMessage}
    (hm : m.isFinal = true) :
    HasEndingToCome (op.message m).hangUp := by
  unfold message
  cases ho : op.inboxOpen with
  | true =>
      cases h with
      | ended ht => exact .ended ht
      | pending he ht => exact .pending he ht
      | inbox hl hx hf => exact .inbox hl (List.mem_append_left _ hx) hf
      | prospect hl => exact .inbox hl (List.mem_append_right _ List.mem_cons_self) hm
  | false =>
      cases h with
      | ended ht => exact .ended ht
      | pending he ht => exact .pending he ht
      | inbox hl hx hf => exact .inbox hl hx hf
      | prospect _ hopen => rw [ho] at hopen; cases hopen

/-- Every step of a worker leaves something to come, and a worker that leaves has ended the
operation or has found it at its end. -/
theorem Work.endingToCome {r : Operation α × List Demand} (h : Work plan op r)
    (hkind : op.gate.kind = plan.kind) (hm : SeatInvariant op)
    (ho : EndingToCome plan op op.stage) :
    EndingToCome plan r.1 r.1.stage := by
  cases h with
  | stop _ ha =>
      -- only a cancellation tells a worker to stop
      have hc : op.phase = .cancelled := hm.leaving (.inl ha)
      have ht : op.phase.isTerminal = true := by rw [hc]; rfl
      exact ht
  | look hs | lookAgain hs | wait hs | settle hs | await hs | watch hs | flushAgain hs =>
      rw [hs] at ho
      exact ho.frame hkind (.goto op _)
  | enter hs ht =>
      rw [hs] at ho
      have hp : _ = Phase.running := op.entered_of_tryEnter ht
      refine ⟨fun _ => ?_, fun hk => ?_⟩
      · simp [goto, withGate, phase, gate, hp, Phase.isRunningOrOver]
      · exact (ho hk).frame ⟨.of_tryEnter ht _, List.prefix_rfl, List.prefix_rfl, rfl, rfl⟩
  | send hs hk => rw [hs] at ho; exact ⟨hk, ho.1 hk⟩
  | register hs hk => rw [hs] at ho; exact ⟨hk, (ho.2 hk).frame (.goto op _)⟩
  | refuse _ ht | giveUp _ ht | shut _ _ ht => exact ht
  | @report a hs hp =>
      have ht : (answerEvent a).isTerminal = true := by cases a <;> rfl
      exact isTerminal_accept op ht
  | drop hs hp =>
      rw [hs] at ho
      exact Phase.isTerminal_of_isRunningOrOver ho.2 hp
  | store hs =>
      rw [hs] at ho
      exact ho.frame hkind ⟨.quiet rfl rfl rfl, List.prefix_rfl, List.prefix_rfl, rfl, rfl⟩
  | establish hs =>
      rw [hs] at ho
      exact ho.frame hkind
        ⟨.quiet rfl rfl rfl, List.prefix_append .., List.prefix_rfl, rfl, rfl⟩
  | deliver hs hq hp => rw [hs] at ho; exact ⟨ho.1, ho.2.hear hq hp _⟩
  | @pursue p todo seen hs =>
      rw [hs] at ho
      obtain ⟨c, slot, next, hc, hr⟩ := op.hear_some todo seen p
      rw [hr]
      exact ho.hearing.frame hkind
        ⟨.of_keepsPhase hc rfl, List.prefix_rfl, List.prefix_rfl, rfl, rfl⟩
  | @call control rest seen hs =>
      rw [hs] at ho
      exact ho.hearing.frame hkind
        ⟨.of_hear_call op control rest seen, List.prefix_rfl, List.prefix_rfl, rfl, rfl⟩
  | @heard seen hs =>
      rw [hs] at ho
      cases seen with
      | none => exact ho
      | some seen => exact EndingToCome.frame (s := .flushing seen) ho hkind (.goto op _)
  | leave hs hd =>
      rw [hs] at ho
      rcases hd with ht | ⟨hl, hq⟩
      · exact ht
      · exact ho.2.isTerminal hl hq
  | take hs _ hi => rw [hs] at ho; exact ⟨ho.1, ho.2.take hi _⟩
  | turnAway hs _ hi hopen => rw [hs] at ho; exact ⟨ho.1, ho.2.turnAway hi hopen _⟩
  | close hs | finish hs => rw [hs] at ho; exact ho

/-! ## Steps -/

theorem EndingToCome.hangUp {s : Stage α} (h : EndingToCome plan op s)
    (ha : plan.kind = .stream → HasEndingToCome op.hangUp) : EndingToCome plan op.hangUp s := by
  cases s with
  | arriving | checking _ | waiting _ => exact ha
  | admitted => exact ⟨h.1, ha⟩
  | sending | answered _ | closing | unregistering _ | finished => exact h
  | hearing _ _ seen =>
      cases seen with
      | none => exact h
      | some _ => exact ⟨h.1, ha h.1⟩
  | _ => exact ⟨h.1, ha h.1⟩

/-- What is known of an operation and its worker. -/
structure WorkerInvariant (plan : Plan α) (op : Operation α) : Prop where
  kind : op.gate.kind = plan.kind
  seated : Seated op
  seatInvariant : SeatInvariant op
  endingToCome : EndingToCome plan op op.stage

theorem workerInvariant_create (plan : Plan α) : WorkerInvariant plan (create plan) where
  kind := by
    unfold create gate
    split <;> rfl
  seated := .inl rfl
  seatInvariant := seatInvariant_create plan
  endingToCome := fun _ => .prospect rfl rfl

/-- Whatever happens leaves something to come, but for the end of an inbox: there the last
message has to be in it, or something else to be left. -/
theorem WorkerInvariant.endingToCome_step (h : WorkerInvariant plan op) (m : Move α)
    (hclose : m = .hangUp → plan.kind = .stream → HasEndingToCome op.hangUp) :
    EndingToCome plan (op.step plan m).1 (op.step plan m).1.stage := by
  have ho := h.endingToCome
  have hm := step_cases plan op m
  generalize op.step plan m = r at hm ⊢
  cases hm with
  | nothing => exact ho
  | turn _ ht =>
      exact ho.frame h.kind ⟨.turn _ ht rfl rfl, List.prefix_rfl, List.prefix_rfl, rfl, rfl⟩
  | @pursue _ p _ =>
      have hc := (op.controller.pursue_keepsPhase p).withPursuits
      rw [follow_fst]
      exact ho.frame h.kind ⟨.of_keepsPhase (hc _) rfl, List.prefix_rfl, List.prefix_rfl, rfl, rfl⟩
  | work _ hw => exact hw.endingToCome h.kind h.seatInvariant ho
  | answer hs | grant hs => rw [hs] at ho; exact ho.frame h.kind (.goto op _)
  | fail hs =>
      rw [hs] at ho
      exact ⟨ho.1, .pending (List.mem_append_right _ List.mem_cons_self) rfl⟩
  | removed hs => rw [hs] at ho; exact ho
  | message =>
      exact ho.frame h.kind
        ⟨.quiet rfl rfl rfl, List.prefix_rfl, List.prefix_append .., rfl, rfl⟩
  | hangUp => exact ho.hangUp (hclose rfl)

theorem workerInvariant_step (h : WorkerInvariant plan op) (m : Move α)
    (hclose : m = .hangUp → plan.kind = .stream → HasEndingToCome op.hangUp) :
    WorkerInvariant plan (op.step plan m).1 where
  kind := (step_successor plan op m).kind_eq.trans h.kind
  seated := seated_step plan op m h.seated
  seatInvariant := seatInvariant_step plan op m h.seatInvariant
  endingToCome := h.endingToCome_step m hclose

/-! ## The end of a worker -/

theorem WorkerInvariant.isTerminal (h : WorkerInvariant plan op) (hs : op.stage = .finished) :
    op.phase.isTerminal = true := by
  have ho := h.endingToCome
  rw [hs] at ho
  exact ho

/-- A worker that has set out runs, and was not told to stop unless its operation was
cancelled. -/
theorem WorkerInvariant.spawned (h : WorkerInvariant plan op) (hs : op.stage ≠ .arriving)
    (hopen : op.phase ≠ .cancelled) : op.controller.seat = .spawned := by
  have hseat := h.seated.resolve_left hs
  cases hc : op.controller.seat with
  | spawned => rfl
  | aborting => exact absurd (h.seatInvariant.leaving (.inl hc)) hopen
  | held | released => simp [isSeated, hc, Seat.isTaken] at hseat

/-- Whether an operation has a worker, or is about to have one. -/
def HasWorker (op : Operation α) : Prop :=
  op.controller.seat = .spawned ∧ op.stage ≠ .finished ∨
    op.controller.seat = .held ∧ .spawn ∈ op.controller.pursuits

/-- An operation that is started and not over has a worker. -/
theorem WorkerInvariant.hasWorker (h : WorkerInvariant plan op) (hstarted : op.phase ≠ .created)
    (ht : op.phase.isTerminal = false) : HasWorker op := by
  have hopen : op.phase ≠ .cancelled := fun hc => by rw [hc] at ht; cases ht
  cases hs : op.controller.seat with
  | spawned =>
      refine .inl ⟨hs, fun hf => ?_⟩
      rw [h.isTerminal hf] at ht
      cases ht
  | held =>
      refine .inr ⟨hs, ?_⟩
      have hstage : op.stage = .arriving :=
        h.seated.resolve_right (by simp [isSeated, hs, Seat.isTaken])
      have hspawn := ((h.seatInvariant.held hs).resolve_left hstarted).resolve_left hopen
      rw [hstage] at hspawn
      simpa [Stage.calls] using hspawn
  | aborting => exact absurd (h.seatInvariant.leaving (.inl hs)) hopen
  | released => exact absurd (h.seatInvariant.leaving (.inr hs)) hopen

/-! ## Operations with one response -/

/-- An operation with one response needs nothing of the inbox. -/
theorem workerInvariant_run_single (hk : plan.kind = .single) (moves : List (Move α)) :
    WorkerInvariant plan (run plan moves (create plan)).1 := by
  refine run_invariant (fun op m h => ?_) moves (workerInvariant_create plan)
  exact workerInvariant_step h m fun _ hs => (by cases hk.symm.trans hs)

/-- The answer of an operation with one response does not have to wait. -/
theorem WorkerInvariant.offer_ne_deferred (h : WorkerInvariant plan op) {a : Except ApiError α}
    (hs : op.stage = .answered a) : (op.offer plan (answerEvent a) none).2 ≠ .deferred := by
  have ho := h.endingToCome
  rw [hs] at ho
  by_cases hp : op.phase = .running
  · rw [offer_of_running plan hp]; nofun
  · have ht : op.phase.isTerminal = true := Phase.isTerminal_of_isRunningOrOver ho.2 hp
    rw [offer_of_ne_running plan hp, Gate.outcome_of_isTerminal ht]
    nofun

/-- One whose request is out runs until it is answered, unless it is cancelled. -/
theorem WorkerInvariant.running (h : WorkerInvariant plan op) (hacc : EndingAgrees op)
    (hr : HeardByStage op op.stage)
    (hs : op.stage = .sending ∨ ∃ a, op.stage = .answered a) (hopen : op.phase ≠ .cancelled) :
    op.phase = .running := by
  have ho := h.endingToCome
  have hactive : op.phase.isRunningOrOver = true ∧ op.heard = [] := by
    rcases hs with hs | ⟨a, hs⟩ <;> rw [hs] at ho hr <;> exact ⟨ho.2, hr⟩
  refine Classical.byContradiction fun hp => ?_
  have ht := Phase.isTerminal_of_isRunningOrOver hactive.1 hp
  obtain ⟨k, hk⟩ := Phase.ending_of_isTerminal ht hopen
  obtain ⟨before, e, hh, -⟩ := hacc.ended k hk
  rw [hactive.2] at hh
  simp at hh

/-- An answer that the worker has is delivered by its next step, and ends the operation. -/
theorem work_answered (plan : Plan α) {a : Except ApiError α} (hseat : op.isSeated = true)
    (hs : op.stage = .answered a) (hp : op.phase = .running) (first : Bool) :
    let after := (op.step plan (.work first)).1
    after.heard = op.heard ++ [answerEvent a] ∧
      ∃ k, (answerEvent a).ending? = some k ∧ after.phase = k.phase := by
  have hwork : op.work? plan first = some (op.report plan a, []) := by
    rw [work?_eq_workAt hseat (by simp [hs, stopsAt]), hs]
    rfl
  simp only [step, hwork, Option.getD_some, report_of_running hp, heard_notify]
  cases a with
  | ok x => exact ⟨rfl, .completed, rfl, rfl⟩
  | error e => exact ⟨rfl, .failed, rfl, rfl⟩

/-- So it is as soon as the answer has come. -/
theorem run_answer (plan : Plan α) (a : Except ApiError α) (hs : op.stage = .sending)
    (hseat : op.controller.seat = .spawned) (hp : op.phase = .running) (first : Bool) :
    let after := (run plan [.answer a, .work first] op).1
    after.heard = op.heard ++ [answerEvent a] ∧
      ∃ k, (answerEvent a).ending? = some k ∧ after.phase = k.phase := by
  have hanswer : op.step plan (.answer a) = (op.goto (.answered a), []) := by
    simp [step, answer, hs, hseat]
  have hseated : (op.goto (.answered a)).isSeated = true := by
    simp [goto, isSeated, hseat, Seat.isTaken]
  simp only [run, hanswer]
  exact work_answered plan hseated rfl hp first

/-- The listener has heard the answer and nothing else, and the operation has ended with it. -/
def EndedBy (a : Except ApiError α) (op : Operation α) : Prop :=
  op.heard = [answerEvent a] ∧ ∃ k, (answerEvent a).ending? = some k ∧ op.phase = k.phase

/-- The next step of a worker that has an answer delivers it. -/
theorem WorkerInvariant.endedBy_of_answered (h : WorkerInvariant plan op) (hacc : EndingAgrees op)
    (hr : HeardByStage op op.stage) {a : Except ApiError α} (hs : op.stage = .answered a)
    (hopen : op.phase ≠ .cancelled) (first : Bool) : EndedBy a (op.step plan (.work first)).1 := by
  have hp := h.running hacc hr (.inr ⟨a, hs⟩) hopen
  have hseat : op.isSeated = true := by
    simp [isSeated, h.spawned (by rw [hs]; nofun) hopen, Seat.isTaken]
  obtain ⟨hheard, hend⟩ := work_answered plan hseat hs hp first
  have hsilent : op.heard = [] := by
    rw [hs] at hr
    exact hr
  exact ⟨by rw [hheard, hsilent, List.nil_append], hend⟩

/-- Whatever answer comes to a request that is out, the next step of the worker delivers it. -/
theorem WorkerInvariant.endedBy_of_sending (h : WorkerInvariant plan op) (hacc : EndingAgrees op)
    (hr : HeardByStage op op.stage) (hs : op.stage = .sending) (hopen : op.phase ≠ .cancelled)
    (a : Except ApiError α) (first : Bool) :
    EndedBy a (run plan [.answer a, .work first] op).1 := by
  have hp := h.running hacc hr (.inl hs) hopen
  have hseat := h.spawned (by rw [hs]; nofun) hopen
  obtain ⟨hheard, hend⟩ := run_answer plan a hs hseat hp first
  have hsilent : op.heard = [] := by
    rw [hs] at hr
    exact hr
  exact ⟨by rw [hheard, hsilent, List.nil_append], hend⟩

/-- An operation with one response that is over has said how it ended, or was cancelled. -/
theorem heard_of_isTerminal (ha : EndingAgrees op) (hr : HeardByStage op op.stage)
    (ht : op.phase.isTerminal = true) :
    op.phase = .cancelled ∧ op.heard = [] ∨ ∃ a, EndedBy a op := by
  by_cases hc : op.phase = .cancelled
  · refine .inl ⟨hc, ?_⟩
    rcases hr.heard_cases with hh | ⟨a, hh⟩
    · exact hh
    · have hopen := ha.unended (fun k hk => by rw [hc] at hk; cases k <;> cases hk) (answerEvent a)
        (by rw [hh]; exact List.mem_cons_self)
      cases a <;> cases hopen
  · obtain ⟨k, hk⟩ := Phase.ending_of_isTerminal ht hc
    obtain ⟨before, e, hh, he, -⟩ := ha.ended k hk
    rcases hr.heard_cases with hnone | ⟨a, hone⟩
    · rw [hnone] at hh
      simp at hh
    · rw [hone] at hh
      have hlast : e = answerEvent a := by
        have hlasts := congrArg List.getLast? hh
        simpa using hlasts.symm
      exact .inr ⟨a, hone, k, hlast ▸ he, hk⟩

end Switchboard.Operation
