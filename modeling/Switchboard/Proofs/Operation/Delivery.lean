import Switchboard.Proofs.Operation.Stream

/-!
# Switchboard.Proofs.Operation.Delivery

What a stream has delivered once its worker can do no more.  A worker that waits with
no change that it has not seen has delivered what is pending, unless the stream is
paused; so pauses put events off, and nothing else.

* `Rests` — the worker cannot take a step;
* `FeedInvariant.heard_eq_events` — everything was heard of a stream at rest that is neither
  paused nor cancelled;
* `delivers_in_order` — what was heard is always the beginning of what was sent, and all
  of it in the end.
-/

namespace Switchboard.Operation

variable {α : Type} {plan : Plan α} {op : Operation α} {f : Feed}

/-! ## Streams at rest -/

/-- The worker cannot take a step: it waits for others, or it is over. -/
def Rests (plan : Plan α) (op : Operation α) : Prop := ∀ first, op.work? plan first = none

theorem Rests.not_work (h : Rests plan op) (hs : op.isSeated = true)
    (r : Operation α × List Demand) : ¬ Work plan op r := by
  intro hw
  obtain ⟨first, hr⟩ := hw.exists_work? hs
  rw [h first] at hr
  cases hr

/-- A stream that was let on its way runs, if it is not paused and not over. -/
theorem running_or_ending {p : Phase} (he : Phase.running.rank ≤ p.rank)
    (hp : ∀ back, p ≠ .paused back) (hc : p ≠ .cancelled) :
    p = .running ∨ ∃ k : Ending, p = k.phase := by
  cases p with
  | created | started => exact absurd he (by decide)
  | running => exact .inl rfl
  | paused back => exact absurd rfl (hp back)
  | completed | cancelled | failed => exact .inr (Phase.ending_of_isTerminal rfl hc)

theorem NothingDelivered.heard_eq_events (h : NothingDelivered none f op) :
    op.heard = f.events plan.decode := by
  rw [h.heard]
  simp [Feed.events, Feed.script, h.outcome, Event.untilEnd]

theorem DeliveryOver.heard_eq_events (h : DeliveryOver plan f op) (ha : EndingAgrees op)
    (hc : op.phase ≠ .cancelled) : op.heard = f.events plan.decode := by
  rcases h.done with ht | ⟨hs, -⟩
  · obtain ⟨k, hk⟩ := Phase.ending_of_isTerminal ht hc
    exact heard_eq_events_of_ending ha hk h.script
  · exact heard_eq_events_of_script ha hs

/-- A worker that has seen every change of a running stream and finds the inbox empty
has delivered everything. -/
theorem heard_eq_events_of_selecting {seen : Nat} (ha : EndingAgrees op)
    (hf : FeedInvariant plan f op (.selecting seen)) (hv : seen = op.gate.version)
    (hr : op.phase = .running) (hu : untaken plan op = []) :
    op.heard = f.events plan.decode :=
  heard_eq_events_of_script ha (hf.1.heard_eq (hf.2.2 hr hv) hu)

/-- A worker that rests while it waits for a change or a message has seen every change and
taken every message. -/
theorem Rests.selecting {seen : Nat} (h : Rests plan op) (hseat : op.isSeated = true)
    (hs : op.stage = .selecting seen) :
    seen = op.gate.version ∧ untaken plan op = [] := by
  have hstuck := h.not_work hseat
  constructor
  · cases Nat.decEq seen op.gate.version with
    | isTrue hv => exact hv
    | isFalse hv => exact absurd (.flushAgain hs hv) (hstuck _)
  · cases hl : op.listening with
    | false => simp [untaken, hl]
    | true =>
        cases hi : op.inbox with
        | nil => simp [untaken, hi]
        | cons m rest => exact absurd (.take hs hl hi) (hstuck _)

/-- Every worker that rests has delivered everything, if the stream is not paused and not
cancelled. -/
theorem FeedInvariant.heard_eq_events (hf : FeedInvariant plan f op op.stage) (ha : EndingAgrees op)
    (hseat : Seated op) (hw : Rests plan op)
    (hp : ∀ back, op.phase ≠ .paused back) (hc : op.phase ≠ .cancelled) :
    op.heard = f.events plan.decode := by
  rcases hseat with hs | hseat
  · rw [hs] at hf; exact NothingDelivered.heard_eq_events hf
  have hstuck := hw.not_work hseat
  cases hs : op.stage with
  | arriving | checking _ | waiting _ => rw [hs] at hf; exact NothingDelivered.heard_eq_events hf
  | admitted => exact absurd (work_embark hs) (hstuck _)
  | registering => rw [hs] at hf; exact hf.1.heard_eq_events
  | sending | answered _ => rw [hs] at hf; exact hf.elim
  | storing id => exact absurd (.store hs) (hstuck _)
  | confirming id =>
      cases ht : op.phase.isTerminal with
      | true => exact absurd (.giveUp hs ht) (hstuck _)
      | false => exact absurd (.establish hs ht) (hstuck _)
  | watching => exact absurd (.watch hs) (hstuck _)
  | flushing seen => exact absurd (work_flush hs) (hstuck _)
  | hearing next todo seen =>
      cases next with
      | some p => exact absurd (.pursue hs) (hstuck _)
      | none =>
          cases todo with
          | nil => exact absurd (.heard hs) (hstuck _)
          | cons control rest => exact absurd (.call hs) (hstuck _)
  | deciding seen => exact absurd (work_decideNext hs) (hstuck _)
  | selecting seen =>
      rw [hs] at hf
      rcases running_or_ending hf.1.entered hp hc with hr | ⟨k, hk⟩
      · obtain ⟨hv, hu⟩ := hw.selecting hseat hs
        exact heard_eq_events_of_selecting ha hf hv hr hu
      · exact heard_eq_events_of_ending ha hk hf.1.prefix_script
  | closing | unregistering _ => rw [hs] at hf; exact DeliveryOver.heard_eq_events hf ha hc
  | finished =>
      rw [hs] at hf
      rcases hf with hf | hf
      · exact hf.heard_eq_events
      · exact hf.heard_eq_events ha hc

/-! ## Delivery in order -/

/-- A listener of a stream hears what the stream is told, in order: at every point the
beginning of it, and all of it when the stream runs, the worker waits with no change that
it has not seen, and no message is left.  So what two listeners have heard that were told
the same is the same once their streams rest, however they were paused and resumed and
whatever the listeners did, if they are not paused or cancelled then. -/
theorem delivers_in_order (plan : Plan α) (hk : plan.kind = .stream) (moves : List (Move α)) :
    let op := (run plan moves (create plan)).1
    let events := (feed plan moves (create plan) {}).events plan.decode
    op.heard <+: events ∧
    (∀ seen, op.stage = .selecting seen → seen = op.gate.version → op.phase = .running →
      op.inbox = [] → op.heard = events) ∧
    (∀ reaction moves',
      let plan' := { plan with reaction }
      let op' := (run plan' moves' (create plan')).1
      (feed plan' moves' (create plan') {}).events plan.decode = events →
      Rests plan op → (∀ back, op.phase ≠ .paused back) → op.phase ≠ .cancelled →
      Rests plan' op' → (∀ back, op'.phase ≠ .paused back) → op'.phase ≠ .cancelled →
      op'.heard = op.heard) := by
  intro op events
  have hf := feedInvariant_run hk moves
  have ha := endingAgrees_run plan moves
  refine ⟨prefix_events ha hf.prefix_script, fun seen hs hv hr hi => ?_, ?_⟩
  · rw [show (run plan moves (create plan)).1.stage = .selecting seen from hs] at hf
    exact heard_eq_events_of_selecting ha hf hv hr (by simp [untaken, show _ = [] from hi])
  · intro reaction moves' plan' op' hsame hw hp hc hw' hp' hc'
    have hheard : op.heard = events :=
      hf.heard_eq_events ha (seated_run plan moves) hw hp hc
    have hk' : plan'.kind = .stream := hk
    have hheard' : op'.heard = _ :=
      (feedInvariant_run hk' moves').heard_eq_events (endingAgrees_run plan' moves')
        (seated_run plan' moves') hw' hp' hc'
    rw [hheard, hheard', ← hsame]

/-- A listener that pauses its stream while it hears the first item. -/
def pausingPlan : Plan Json where
  kind := .stream
  decode := .ok
  reaction := fun n => if n = 2 then some [.pause] else none

/-- The stream is established; two messages come; it is resumed after the listener has
paused it. -/
def pausingMoves : List (Move Json) :=
  [.control .start, .pursue 0, .work true, .work true, .work true, .registered (.ok "s1")] ++
    List.replicate 7 (.work true) ++ [.message (.next (.int 1)), .message (.next (.int 2))] ++
    List.replicate 6 (.work true) ++ [.control .resume] ++ List.replicate 9 (.work true)

/-- The second item comes after the pause. -/
theorem delivers_in_order_pausing :
    pausingPlan.kind = .stream ∧
      (run pausingPlan pausingMoves (create pausingPlan)).1.heard =
        [.established "s1", .item (.int 1), .item (.int 2)] :=
  ⟨rfl, (delivers_in_order pausingPlan rfl pausingMoves).2.1 4 rfl rfl rfl rfl⟩

end Switchboard.Operation
