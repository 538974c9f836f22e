import Switchboard.Proofs.Operation.Finish
import Switchboard.Proofs.Subscription.Removal

/-!
# Switchboard.Proofs.Subscription.Exit

The worker of an operation outlasts it.  What a stream relies on is the endpoint: it tells
a sink that nothing more comes only after a last message, or because the operation itself
had the subscription removed, and that it does only when it is over.

* `LastBeforeHangUp` — moves of an operation that close no inbox without a last message;
* `lastBeforeHangUp_of_change` — what the endpoint tells an operation that has not unregistered;
* `LineInvariant` — what holds of a line at all times;
* `lineInvariant_step`, `lineInvariant_run` — every move keeps it, as long as nobody else removes
  the subscription;
* `operation_run` — the operation of a line takes steps of its own;
* `worker_outlasts_operation` — so no worker leaves before its operation is over.
-/

namespace Switchboard.Line

open GraphQL (FieldError)

variable {α σ : Type} {plan : Plan α} {l : Line α σ}

/-! ## What the endpoint says -/

/-- Moves that close no inbox without a last message. -/
inductive LastBeforeHangUp : List (Operation.Move α) → Prop where
  | nil : LastBeforeHangUp []
  | message (m : StreamMessage) {rest : List (Operation.Move α)} (after : LastBeforeHangUp rest) :
      LastBeforeHangUp (.message m :: rest)
  | last {m : StreamMessage} (isFinal : m.isFinal = true) {rest : List (Operation.Move α)}
      (after : LastBeforeHangUp rest) : LastBeforeHangUp (.message m :: .hangUp :: rest)

/-- What the operation learns of signals. -/
def toMoves (signals : List (Signal (Option σ))) : List (Operation.Move α) :=
  signals.filterMap Signal.move?

theorem toMoves_append (s t : List (Signal (Option σ))) :
    toMoves (α := α) (s ++ t) = toMoves s ++ toMoves t :=
  List.filterMap_append

theorem toMoves_hangUps (link : Option Link) :
    toMoves (α := α) (σ := σ) (link.toList.map fun link => .hangUp link.connection) = [] := by
  cases link <;> rfl

theorem toMoves_remove (ep : Endpoint (Option σ)) (id : String) :
    toMoves (α := α) (ep.remove id).2 = [] := by
  rcases ep.remove_cases id with ⟨-, hr⟩ | ⟨-, hr⟩
  · rw [hr]; exact toMoves_hangUps ep.link
  · rw [hr]; rfl

theorem lastBeforeHangUp_lastMessage (ep : Endpoint (Option σ)) (id : String) {m : StreamMessage}
    (h : m.isFinal = true) : LastBeforeHangUp (toMoves (α := α) (ep.lastMessage id m)) := by
  unfold Endpoint.lastMessage
  cases Keyed.get? id ep.table with
  | none => exact .nil
  | some sink =>
      cases sink with
      | none => exact .last h .nil
      | some _ => exact .nil

/-- Every sink of a connection that is lost has a last message. -/
theorem lastBeforeHangUp_lost (table : Keyed (Option σ)) (e : ApiError) :
    LastBeforeHangUp (toMoves (α := α)
      (table.flatMap fun entry => [.hand entry.2 (.lost e), .release entry.2])) := by
  induction table with
  | nil => exact .nil
  | cons entry rest ih =>
      obtain ⟨id, sink⟩ := entry
      cases sink with
      | none => exact .last rfl ih
      | some _ => exact ih

/-- What the endpoint tells an operation whose registration it does not answer, and whose
subscription it was not asked to remove. -/
theorem lastBeforeHangUp_of_change {ep : Endpoint (Option σ)} {m : Endpoint.Move (Option σ)}
    {r : Endpoint (Option σ) × List (Signal (Option σ))} (hc : Endpoint.Change ep m r)
    (hnone : ∀ x, .answer none x ∉ r.2)
    (hown : ∀ id accepting, m = .unregister id accepting → (id, none) ∉ ep.table) :
    LastBeforeHangUp (toMoves (α := α) r.2) := by
  have hsome : ∀ {q : Registration (Option σ)} {x : Except ApiError String},
      .answer q.sink x ∈ r.2 → ∃ s, q.sink = some s := by
    intro q x hx
    cases hs : q.sink with
    | none => rw [hs] at hx; exact absurd hx (hnone x)
    | some s => exact ⟨s, rfl⟩
  cases hc with
  | wait | dial | unknown | stale | ignore | past => exact .nil
  | @subscribe q _ _ _ | @establish q _ _ =>
      obtain ⟨s, hs⟩ := hsome (q := q) (x := .ok q.id) (by simp [Endpoint.subscribed])
      rw [Endpoint.subscribed, hs]
      exact .nil
  | @turnDown q _ _ _ | @strand q _ _ =>
      obtain ⟨s, hs⟩ := hsome (q := q) (x := .error Endpoint.closedError)
        (by simp [Endpoint.turnedDown])
      rw [Endpoint.turnedDown, hs]
      exact .nil
  | @giveUp q e _ =>
      obtain ⟨s, hs⟩ := hsome (q := q) (x := .error e) (by simp)
      rw [hs]
      exact .nil
  | @unregister id accepting sink _ hg =>
      cases sink with
      | none => exact absurd (Keyed.mem_of_get? hg) (hown id accepting rfl)
      | some s =>
          rw [toMoves_append, toMoves_remove, List.append_nil]
          have hcompletion : toMoves (α := α) (ep.completion id accepting) = [] :=
            Endpoint.filterMap_completion (fun _ _ => rfl) ..
          exact hcompletion ▸ .nil
  | @forward generation id payload _ _ =>
      cases Keyed.get? id ep.table with
      | none => exact .nil
      | some sink =>
          cases sink with
          | none => exact .message _ .nil
          | some _ => exact .nil
  | fail | complete =>
      rw [toMoves_append, toMoves_remove, List.append_nil]
      exact lastBeforeHangUp_lastMessage ep _ rfl
  | @lost generation e _ _ =>
      rw [Endpoint.dropAll, toMoves_append]
      have hhang := toMoves_hangUps (α := α) (σ := σ) ep.link
      rw [Endpoint.hangUp, hhang, List.nil_append]
      exact lastBeforeHangUp_lost ep.table e

/-! ## What holds of a line -/

/-- What is known of the operation, and why a removal is on its way. -/
structure LineInvariant (plan : Plan α) (l : Line α σ) : Prop where
  workerInvariant : Operation.WorkerInvariant plan l.operation
  removals : l.removals ≠ [] → l.operation.phase.isTerminal = true

theorem lineInvariant_create (plan : Plan α) : LineInvariant plan (create plan : Line α σ) :=
  ⟨Operation.workerInvariant_create plan, fun h => absurd rfl h⟩

/-- The end of the operation is the end for good. -/
theorem isTerminal_act {m : Operation.Move α} (h : l.operation.phase.isTerminal = true) :
    (l.act plan m).operation.phase.isTerminal = true := by
  have hp := ((Operation.step_effect plan l.operation m).of_isTerminal h).1
  exact (congrArg Phase.isTerminal hp).trans h

/-- A step of the operation, if it closes no inbox that something is expected of. -/
theorem LineInvariant.act (h : LineInvariant plan l) (m : Operation.Move α)
    (hclose : m = .hangUp → plan.kind = .stream → l.operation.hangUp.HasEndingToCome) :
    LineInvariant plan (l.act plan m) := by
  refine ⟨Operation.workerInvariant_step h.workerInvariant m hclose, fun hne => ?_⟩
  by_cases hold : l.removals = []
  · have hnew : released (l.operation.step plan m).2 ≠ [] := by
      simpa [Line.act, hold] using hne
    have hc := h.workerInvariant.seatInvariant.of_released hnew
    exact (congrArg Phase.isTerminal hc).trans rfl
  · exact isTerminal_act (h.removals hold)

/-- Once the operation is over, an inbox can be closed. -/
theorem LineInvariant.act_of_isTerminal (h : LineInvariant plan l)
    (ht : l.operation.phase.isTerminal = true)
    (m : Operation.Move α) : LineInvariant plan (l.act plan m) :=
  h.act m fun _ _ => .ended ht

theorem LineInvariant.foldl_of_isTerminal (h : LineInvariant plan l)
    (ht : l.operation.phase.isTerminal = true) (moves : List (Operation.Move α)) :
    LineInvariant plan (moves.foldl (Line.act plan) l) := by
  induction moves generalizing l with
  | nil => exact h
  | cons m rest ih => exact ih (h.act_of_isTerminal ht m) (isTerminal_act ht)

theorem LineInvariant.foldl (h : LineInvariant plan l) {moves : List (Operation.Move α)}
    (hf : LastBeforeHangUp moves) :
    LineInvariant plan (moves.foldl (Line.act plan) l) := by
  induction hf generalizing l with
  | nil => exact h
  | message m _ ih => exact ih (h.act (.message m) fun hm => nomatch hm)
  | @last m hm _ _ ih =>
      have hmessage : LineInvariant plan (l.act plan (.message m)) :=
        h.act (.message m) fun hm => nomatch hm
      refine ih (hmessage.act .hangUp fun _ hk => ?_)
      exact Operation.HasEndingToCome.hangUp (h.workerInvariant.endingToCome.hasEndingToCome hk) hm

/-! ## Moves of the endpoint -/

/-- A registration that fails closes the inbox, and is something to tell. -/
theorem LineInvariant.fail (h : LineInvariant plan l) (hstage : l.operation.stage = .registering)
    (e : ApiError) :
    LineInvariant plan ((l.act plan .hangUp).act plan (.registered (.error e))) := by
  have hl : (l.act plan .hangUp).act plan (.registered (.error e)) =
      { l with operation := { l.operation with
          inboxOpen := false, listening := false, pending := l.operation.pending ++ [.failed e],
          stage := .watching } } := by
    simp [Line.act, Operation.step, Operation.registered, Operation.hangUp, hstage, released]
  have hseated := h.workerInvariant.seated
  have hinv := h.workerInvariant.seatInvariant
  have hcome := h.workerInvariant.endingToCome
  rw [Operation.SeatInvariant, hstage] at hinv
  rw [hstage] at hcome
  have hseat : l.operation.isSeated = true := hseated.resolve_left (by rw [hstage]; simp)
  rw [hl]
  exact
    ⟨⟨h.workerInvariant.kind, .inr hseat, hinv,
      hcome.1, .pending (List.mem_append_right _ List.mem_cons_self) rfl⟩, h.removals⟩

/-- Whatever happens to the endpoint, but for a removal that the operation did not ask for. -/
theorem LineInvariant.use (h : LineInvariant plan l) {m : Endpoint.Move (Option σ)}
    (hasked : ∀ q, m.registration? = some q ∨ l.endpoint.opening = some q →
      q.sink = none → l.operation.stage = .registering)
    (hown : ∀ id accepting, m = .unregister id accepting → (id, none) ∉ l.endpoint.table) :
    LineInvariant plan (l.use plan m) := by
  have hnext : LineInvariant plan { l with endpoint := (l.endpoint.step m).1 } :=
    ⟨h.workerInvariant, h.removals⟩
  rcases use_cases plan l m with ⟨hnone, -⟩ | ⟨q, hsink, hq, -, ⟨-, hl⟩ | ⟨e, -, hl⟩⟩
  · exact hnext.foldl (lastBeforeHangUp_of_change (l.endpoint.step_change m) hnone hown)
  · rw [hl]
    exact hnext.act _ fun hm => nomatch hm
  · rw [hl]
    exact hnext.fail (hasked q hq hsink) e

theorem LineInvariant.withdraw (h : LineInvariant plan l) (ht : l.operation.phase.isTerminal = true)
    (id : String) (accepting : Bool) : LineInvariant plan (l.withdraw plan id accepting) := by
  have hnext : LineInvariant plan
      { l with
        endpoint := (l.endpoint.step (.unregister id accepting)).1
        removed := l.removed ++ [id] } :=
    ⟨h.workerInvariant, h.removals⟩
  exact hnext.foldl_of_isTerminal ht _

/-! ## Steps -/

/-- Every move keeps what holds of a line, unless somebody else removes the subscription. -/
theorem lineInvariant_step (hc : IdInvariant l) (h : LineInvariant plan l) (m : Move σ)
    (own : ∀ id accepting, m = .elsewhere (.unregister id accepting) →
      (id, none) ∉ l.endpoint.table) :
    LineInvariant plan (l.step plan m) := by
  cases m with
  | control c => exact h.act (.control c) fun hm => nomatch hm
  | pursue i => exact h.act (.pursue i) fun hm => nomatch hm
  | work first => exact h.act (.work first) fun hm => nomatch hm
  | register id document accepting =>
      simp only [step]
      split
      · next hs => exact h.use (fun _ _ _ => hs) fun id accepting hm => by cases hm
      · exact h
  | unregister accepting =>
      simp only [step]
      split
      · next id hs =>
        split
        · exact h
        · have ht : l.operation.phase.isTerminal = true := by
            have ho := h.workerInvariant.endingToCome
            rw [hs] at ho
            exact ho
          exact (h.withdraw ht id accepting).act .unregistered fun hm => by cases hm
      · exact h
  | remove i accepting =>
      simp only [step]
      split
      · next id hi =>
        split
        · exact h
        · have ht := h.removals (List.ne_nil_of_mem (List.mem_of_getElem? hi))
          have hnext : LineInvariant plan { l with removals := l.removals.eraseIdx i } :=
            ⟨h.workerInvariant, fun _ => ht⟩
          exact hnext.withdraw ht id accepting
      · exact h
  | elsewhere m =>
      refine h.use (fun q hq hsink => ?_) fun id accepting hm => ?_
      · rcases hq with hq | hq
        · cases m with
          | register q' _ => cases hq; cases hsink
          | _ => cases hq
        · exact hc.opening q hq hsink
      · cases m with
        | unregister _ _ => cases hm; exact own id accepting rfl
        | _ => cases hm

theorem lineInvariant_run (moves : List (Move σ)) (hc : IdInvariant l) (h : LineInvariant plan l)
    (own : ∀ before id accepting, before ++ [.elsewhere (.unregister id accepting)] <+: moves →
      (id, none) ∉ (l.run plan before).endpoint.table) : LineInvariant plan (l.run plan moves) := by
  induction moves generalizing l with
  | nil => exact h
  | cons m rest ih =>
      refine ih (step_idInvariant plan hc m).1
        (lineInvariant_step hc h m fun id accepting hm => ?_) ?_
      · exact own [] id accepting (by rw [hm]; exact List.prefix_append [_] rest)
      · intro before id accepting hp
        exact own (m :: before) id accepting (List.cons_prefix_cons.2 ⟨rfl, hp⟩)

/-! ## What the operation of a line does -/

@[simp] theorem operation_foldl_act (plan : Plan α) (moves : List (Operation.Move α))
    (l : Line α σ) :
    (moves.foldl (act plan) l).operation = (Operation.run plan moves l.operation).1 := by
  induction moves generalizing l with
  | nil => rfl
  | cons m rest ih => exact ih (l.act plan m)

theorem operation_use (plan : Plan α) (l : Line α σ) (m : Endpoint.Move (Option σ)) :
    ∃ moves, (l.use plan m).operation = (Operation.run plan moves l.operation).1 :=
  ⟨_, operation_foldl_act ..⟩

/-- Whatever happens to a line, its operation takes steps of its own, or none. -/
theorem operation_step (plan : Plan α) (l : Line α σ) (m : Move σ) :
    ∃ moves, (l.step plan m).operation = (Operation.run plan moves l.operation).1 := by
  have hnone : ∃ moves, l.operation = (Operation.run plan moves l.operation).1 := ⟨[], rfl⟩
  cases m with
  | control c => exact ⟨[.control c], rfl⟩
  | pursue i => exact ⟨[.pursue i], rfl⟩
  | work first => exact ⟨[.work first], rfl⟩
  | register id document accepting =>
      simp only [step]
      split
      · exact operation_use ..
      · exact hnone
  | unregister accepting =>
      simp only [step]
      split
      · split
        · exact hnone
        · next id _ _ =>
          obtain ⟨moves, hmoves⟩ := operation_use plan { l with removed := l.removed ++ [id] }
            (.unregister id accepting)
          refine ⟨moves ++ [.unregistered], ?_⟩
          rw [Operation.run_append_fst, ← hmoves]
          rfl
      · exact hnone
  | remove i accepting =>
      simp only [step]
      split
      · split
        · exact hnone
        · exact operation_use ..
      · exact hnone
  | elsewhere m => exact operation_use ..

theorem operation_run (plan : Plan α) (moves : List (Move σ)) (l : Line α σ) :
    ∃ taken, (l.run plan moves).operation = (Operation.run plan taken l.operation).1 := by
  induction moves generalizing l with
  | nil => exact ⟨[], rfl⟩
  | cons m rest ih =>
      obtain ⟨first, hfirst⟩ := operation_step plan l m
      obtain ⟨later, hlater⟩ := ih (l.step plan m)
      refine ⟨first ++ later, ?_⟩
      rw [Operation.run_append_fst, ← hfirst]
      exact hlater

/-! ## The end of a worker -/

/-- No worker leaves before its operation is over.

When the worker of an operation with one response is through, the operation is over; its
answer never has to wait.  Unless the operation was cancelled before, whatever answer comes
to its request is heard with the next step of the worker, as the one event, and ends it.

When the worker of a stream is through, the stream is over, and it is already when the worker
finds that no message can come and nothing is pending, as long as nobody else removes its
subscription.

And whatever the kind, an operation that is started and not over has a worker, or a start
under way that is about to hand it over, and from there it can come to its end without a
cancellation from elsewhere. -/
theorem worker_outlasts_operation (plan : Plan α) :
    (plan.kind = .single → ∀ moves : List (Operation.Move α),
      let op := (Operation.run plan moves (Operation.create plan)).1
      (op.stage = .finished → op.phase.isTerminal = true ∧
        (op.phase = .cancelled ∧ op.heard = [] ∨ ∃ r, Operation.EndedBy r op)) ∧
      (∀ r, op.stage = .answered r →
        (op.offer plan (Operation.answerEvent r) none).2 ≠ .deferred) ∧
      (op.phase ≠ .cancelled → ∀ r first,
        (op.stage = .answered r → Operation.EndedBy r (op.step plan (.work first)).1) ∧
        (op.stage = .sending →
          Operation.EndedBy r (Operation.run plan [.answer r, .work first] op).1)) ∧
      (op.phase ≠ .created → op.phase.isTerminal = false →
        op.HasWorker ∧ Operation.CanEnd plan op)) ∧
    (plan.kind = .stream → ∀ moves : List (Move σ),
      (∀ before id accepting, before ++ [.elsewhere (.unregister id accepting)] <+: moves →
        (id, none) ∉ (run plan before (create plan)).endpoint.table) →
      let op := (run plan moves (create plan)).operation
      (op.stage = .finished → op.phase.isTerminal = true) ∧
      (∀ seen, op.stage = .deciding seen → op.listening = false → op.pending = [] →
        op.phase.isTerminal = true) ∧
      (op.phase ≠ .created → op.phase.isTerminal = false →
        op.HasWorker ∧ Operation.CanEnd plan op)) := by
  constructor
  · intro hk moves op
    have h : Operation.Reached plan op :=
      ⟨⟨moves, rfl⟩, Operation.workerInvariant_run_single hk moves⟩
    have hacc : Operation.EndingAgrees op := Operation.endingAgrees_run plan moves
    have hr : Operation.HeardByStage op op.stage := Operation.heardByStage_run hk moves
    refine ⟨fun hs => ?_, fun r hs => h.workerInvariant.offer_ne_deferred hs,
      fun hopen r first => ?_,
      fun hstarted ht => ⟨h.workerInvariant.hasWorker hstarted ht, h.canEnd hstarted⟩⟩
    · have ht := h.workerInvariant.isTerminal hs
      exact ⟨ht, Operation.heard_of_isTerminal hacc hr ht⟩
    · exact ⟨fun hs => h.workerInvariant.endedBy_of_answered hacc hr hs hopen first,
        fun hs => h.workerInvariant.endedBy_of_sending hacc hr hs hopen r first⟩
  · intro hk moves own op
    have hline : LineInvariant plan (run plan moves (create plan)) :=
      lineInvariant_run moves (idInvariant_create plan) (lineInvariant_create plan) own
    have h : Operation.Reached plan op :=
      ⟨operation_run plan moves (create plan), hline.workerInvariant⟩
    refine ⟨h.workerInvariant.isTerminal, fun seen hs hl hp => ?_,
      fun hstarted ht => ⟨h.workerInvariant.hasWorker hstarted ht, h.canEnd hstarted⟩⟩
    exact (h.workerInvariant.endingToCome.hasEndingToCome hk).isTerminal hl hp

/-- A request is out, and its answer comes: the listener hears it, and the worker leaves.  And
no connection can be opened for a stream, with nothing in the inbox of its worker: the listener
hears of that, and the worker leaves. -/
theorem worker_outlasts_refusal :
    (let plan : Plan Nat := { kind := .single, decode := fun _ => .ok 0 }
     let start : List (Operation.Move Nat) :=
      [.control .start, .pursue 0, .work false, .work false, .work false]
     let op := (Operation.run plan start (Operation.create plan)).1
     op.stage = .sending ∧
      Operation.EndedBy (.ok 7) (Operation.run plan [.answer (.ok 7), .work false] op).1 ∧
      (Operation.run plan (start ++ [.answer (.ok 7), .work false, .work false])
        (Operation.create plan)).1.phase.isTerminal = true) ∧
    (let plan : Plan Unit := { kind := .stream, decode := fun _ => .ok () }
     let moves : List (Move Nat) :=
      [.control .start, .pursue 0, .work false, .work false, .work false,
        .register "s1" (.ofQuery "subscription { a }") true,
        .elsewhere (.refused Endpoint.closedError)] ++ List.replicate 7 (.work false)
     (run plan moves (create plan)).operation.stage = .finished ∧
      (run plan moves (create plan)).operation.heard = [.failed Endpoint.closedError] ∧
      (run plan moves (create plan)).operation.phase.isTerminal = true) := by
  refine ⟨?_, ?_⟩
  · intro plan start op
    obtain ⟨-, -, hdelivers, -⟩ := (worker_outlasts_operation (σ := Nat) plan).1 rfl start
    obtain ⟨hleft, -⟩ := (worker_outlasts_operation (σ := Nat) plan).1 rfl
      (start ++ [.answer (.ok 7), .work false, .work false])
    exact ⟨rfl, (hdelivers (by decide) (.ok 7) false).2 rfl, (hleft rfl).1⟩
  · intro plan moves
    have hrun : (run plan moves (create plan)).operation.stage = .finished ∧
        (run plan moves (create plan)).operation.heard = [.failed Endpoint.closedError] := by
      simp only [plan, moves]
      exact ⟨rfl, rfl⟩
    have own : ∀ before id accepting,
        before ++ [.elsewhere (.unregister id accepting)] <+: moves →
          (id, none) ∉ (run plan before (create plan)).endpoint.table := by
      intro before id accepting hp
      have hmem : .elsewhere (.unregister id accepting) ∈ moves :=
        hp.subset (List.mem_append_right _ List.mem_cons_self)
      simp [moves] at hmem
    exact ⟨hrun.1, hrun.2, ((worker_outlasts_operation plan).2 rfl moves own).1 hrun.1⟩

end Switchboard.Line
