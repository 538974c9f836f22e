import Switchboard.Proofs.Operation.Stream

/-!
# Switchboard.Proofs.Operation.History

The shape of what a listener hears.  An operation with one response has one event; a
stream is established, goes on with items and ends at most once, or could not be
registered.

* `IsHistory` — what can be heard of an operation from the first event to the last;
* `isHistory_events` — the events of a feed have this shape;
* `HeardByStage` — what holds of an operation with one response at each stage;
* `heard_isHistory` — what was heard is the beginning of a history;
* `ends_iff_heard` — the last event of an operation and the phase that it ends in come
  at once.
-/

namespace Switchboard

variable {α : Type}

/-! ## Histories -/

/-- All that a listener hears of an operation, if nobody cancels it. -/
inductive IsHistory : Kind → List (Event α) → Prop where
  | response (x : α) : IsHistory .single [.response x]
  | failed (e : ApiError) : IsHistory .single [.failed e]
  /-- The subscription could not be registered. -/
  | refused (e : ApiError) : IsHistory .stream [.failed e]
  /-- The stream goes on for as long as anyone looks. -/
  | unended (id : String) (xs : List α) : IsHistory .stream (.established id :: xs.map .item)
  | completed (id : String) (xs : List α) :
      IsHistory .stream (.established id :: xs.map .item ++ [.completed])
  | broken (id : String) (xs : List α) (e : ApiError) :
      IsHistory .stream (.established id :: xs.map .item ++ [.failed e])

/-- The event of a message is an item, or it ends the stream. -/
theorem StreamMessage.toEvent_cases (decode : Json → Except ApiError α) (m : StreamMessage) :
    (∃ x, m.toEvent decode = .item x) ∨ m.toEvent decode = .completed ∨
      ∃ e, m.toEvent decode = .failed e := by
  cases m with
  | next payload =>
      cases hd : decode payload with
      | ok x => exact .inl ⟨x, by simp [toEvent, hd]⟩
      | error e => exact .inr (.inr ⟨e, by simp [toEvent, hd]⟩)
  | errors es => exact .inr (.inr ⟨_, rfl⟩)
  | complete => exact .inr (.inl rfl)
  | lost e => exact .inr (.inr ⟨e, rfl⟩)

/-- Messages up to the first that ends a stream are items and what ends it. -/
theorem Event.untilEnd_toEvent (decode : Json → Except ApiError α) (sent : List StreamMessage) :
    ∃ (xs : List α) (last : List (Event α)),
      untilEnd (sent.map (·.toEvent decode)) = xs.map .item ++ last ∧
        (last = [] ∨ last = [.completed] ∨ ∃ e, last = [.failed e]) := by
  induction sent with
  | nil => exact ⟨[], [], rfl, .inl rfl⟩
  | cons m rest ih =>
      rw [List.map_cons]
      rcases m.toEvent_cases decode with ⟨x, hx⟩ | hx | ⟨e, hx⟩
      · obtain ⟨xs, last, hu, hl⟩ := ih
        refine ⟨x :: xs, last, ?_, hl⟩
        rw [hx, List.map_cons, List.cons_append, ← hu]
        rfl
      · exact ⟨[], [.completed], by rw [hx]; rfl, .inr (.inl rfl)⟩
      · exact ⟨[], [.failed e], by rw [hx]; rfl, .inr (.inr ⟨e, rfl⟩)⟩

/-- The events of a feed are a history, once the endpoint has answered. -/
theorem Feed.isHistory_events (decode : Json → Except ApiError α) {f : Feed}
    {r : Except ApiError String} (h : f.outcome = some r) :
    IsHistory .stream (f.events decode) := by
  unfold events script
  rw [h]
  cases r with
  | error e => exact .refused e
  | ok id =>
      obtain ⟨xs, last, hu, hl⟩ := Event.untilEnd_toEvent decode f.sent
      have hu' : Event.untilEnd (.established id :: f.sent.map (·.toEvent decode)) =
          .established id :: xs.map .item ++ last := by
        rw [List.cons_append, ← hu]
        rfl
      rw [hu']
      rcases hl with rfl | rfl | ⟨e, rfl⟩
      · rw [List.append_nil]; exact .unended id xs
      · exact .completed id xs
      · exact .broken id xs e

/-- A failure stands first among the events of a feed only if the endpoint refused the
subscription. -/
theorem Feed.outcome_of_failed (decode : Json → Except ApiError α) {f : Feed} {e : ApiError}
    {rest : List (Event α)} (h : f.events decode = .failed e :: rest) :
    f.outcome = some (.error e) ∧ rest = [] := by
  unfold events script at h
  cases ho : f.outcome with
  | none => rw [ho] at h; cases h
  | some r =>
      rw [ho] at h
      cases r with
      | ok id => cases h
      | error e' => cases h; exact ⟨rfl, rfl⟩

namespace Operation

variable {plan : Plan α} {op op' : Operation α}

/-! ## Operations with one response -/

/-- What the listener of an operation with one response has heard while the worker is at
a stage. -/
def HeardByStage (op : Operation α) : Stage α → Prop
  | .arriving | .checking _ | .waiting _ | .admitted | .sending | .answered _ => op.heard = []
  | .hearing _ _ none | .finished => op.heard = [] ∨ ∃ r, op.heard = [answerEvent r]
  -- these are stages of streams
  | _ => False

theorem HeardByStage.frame {s : Stage α} (h : HeardByStage op s) (hh : op'.heard = op.heard) :
    HeardByStage op' s := by
  cases s with
  | arriving | checking _ | waiting _ | admitted | sending | answered _ => exact hh.trans h
  | finished => simpa only [HeardByStage, hh] using h
  | hearing _ _ seen =>
      cases seen with
      | none => simpa only [HeardByStage, hh] using h
      | some _ => exact h
  | _ => exact h

theorem Work.heardByStage (hk : plan.kind = .single) {r : Operation α × List Demand}
    (h : Work plan op r) (ha : HeardByStage op op.stage) : HeardByStage r.1 r.1.stage := by
  cases h with
  | stop hs =>
      cases hst : op.stage with
      | arriving | waiting _ | sending => rw [hst] at ha; exact .inl ha
      | _ => rw [hst] at hs; cases hs
  | look hs | lookAgain hs | enter hs | send hs | wait hs => rw [hs] at ha; exact ha
  | register _ hstream => rw [hk] at hstream; cases hstream
  | refuse hs | drop hs => rw [hs] at ha; exact .inl ha
  | @report a hs =>
      rw [hs] at ha
      refine .inr ⟨a, ?_⟩
      rw [heard_notify]
      exact congrArg (· ++ [answerEvent a]) ha
  | @pursue p todo seen hs =>
      rw [hs] at ha
      obtain ⟨c, slot, next, -, hr⟩ := op.hear_some todo seen p
      rw [hr]
      cases seen with
      | none => exact ha
      | some _ => exact ha.elim
  | @call control rest seen hs =>
      rw [hs] at ha
      cases seen with
      | none => exact ha.frame (by simp [hear_call, Operation.heard])
      | some _ => exact ha.elim
  | @heard seen hs =>
      rw [hs] at ha
      cases seen with
      | none => exact ha
      | some _ => exact ha.elim
  | store hs | giveUp hs | establish hs | watch hs | deliver hs | settle hs | shut hs | leave hs
  | await hs | take hs | turnAway hs | flushAgain hs | close hs | finish hs =>
      rw [hs] at ha; exact ha.elim

theorem heardByStage_step (hk : plan.kind = .single) (op : Operation α) (m : Move α)
    (ha : HeardByStage op op.stage) : HeardByStage (op.step plan m).1 (op.step plan m).1.stage := by
  have h := step_cases plan op m
  generalize op.step plan m = r at h ⊢
  cases h with
  | pursue => rw [follow_fst]; exact ha
  | work _ hw => exact hw.heardByStage hk ha
  | answer hs => rw [hs] at ha; exact ha
  | grant hs | fail hs | removed hs => rw [hs] at ha; exact ha.elim
  | nothing | turn | message | hangUp => exact ha

theorem heardByStage_run (hk : plan.kind = .single) (moves : List (Move α)) :
    HeardByStage (run plan moves (create plan)).1 (run plan moves (create plan)).1.stage :=
  run_invariant (P := fun op => HeardByStage op op.stage) (heardByStage_step hk) moves rfl

theorem HeardByStage.heard_cases {s : Stage α} (h : HeardByStage op s) :
    op.heard = [] ∨ ∃ r, op.heard = [answerEvent r] := by
  cases s with
  | arriving | checking _ | waiting _ | admitted | sending | answered _ => exact .inl h
  | finished => exact h
  | hearing _ _ seen =>
      cases seen with
      | none => exact h
      | some _ => exact h.elim
  | _ => exact h.elim

/-! ## What was heard -/

/-- What was heard of an operation with one response is one event at most. -/
theorem heard_isHistory_single (hk : plan.kind = .single) (moves : List (Move α)) :
    ∃ h, IsHistory .single h ∧ (run plan moves (create plan)).1.heard <+: h := by
  rcases (heardByStage_run hk moves).heard_cases with hh | ⟨r, hh⟩
  · rw [hh]; exact ⟨_, .failed (.connection ""), List.nil_prefix⟩
  · rw [hh]
    cases r with
    | ok x => exact ⟨_, .response x, List.prefix_rfl⟩
    | error e => exact ⟨_, .failed e, List.prefix_rfl⟩

theorem heard_prefix_events (hk : plan.kind = .stream) (moves : List (Move α)) :
    (run plan moves (create plan)).1.heard <+:
      (feed plan moves (create plan) {}).events plan.decode :=
  prefix_events (endingAgrees_run plan moves) (feedInvariant_run hk moves).prefix_script

theorem heard_isHistory_stream (hk : plan.kind = .stream) (moves : List (Move α)) :
    ∃ h, IsHistory .stream h ∧ (run plan moves (create plan)).1.heard <+: h := by
  have hp := heard_prefix_events hk moves
  cases ho : (feed plan moves (create plan) {}).outcome with
  | some r => exact ⟨_, Feed.isHistory_events plan.decode ho, hp⟩
  | none =>
      have hnil : (feed plan moves (create plan) {}).events plan.decode = [] := by
        simp [Feed.events, Feed.script, ho, Event.untilEnd]
      rw [hnil] at hp
      rw [List.prefix_nil.1 hp]
      exact ⟨_, .refused (.connection ""), List.nil_prefix⟩

theorem heard_isHistory (plan : Plan α) (moves : List (Move α)) :
    ∃ h, IsHistory plan.kind h ∧ (run plan moves (create plan)).1.heard <+: h := by
  cases hk : plan.kind with
  | single => exact heard_isHistory_single hk moves
  | stream => exact heard_isHistory_stream hk moves

/-- A stream that begins with a failure was not registered. -/
theorem outcome_of_heard_failed (hk : plan.kind = .stream) (moves : List (Move α))
    {e : ApiError} (h : [.failed e] <+: (run plan moves (create plan)).1.heard) :
    (feed plan moves (create plan) {}).outcome = some (.error e) := by
  obtain ⟨rest, hrest⟩ := h.trans (heard_prefix_events hk moves)
  exact (Feed.outcome_of_failed plan.decode hrest.symm).1

/-! ## How it ends -/

/-- The last event of an operation and the phase that it ends in come at once. -/
theorem Effect.ends_iff_heard (h : Effect op op') (k : Ending) :
    (∃ e, e.ending? = some k ∧ op'.heard = op.heard ++ [e]) ↔
      op.phase ≠ k.phase ∧ op'.phase = k.phase := by
  cases h with
  | quiet hp _ hh =>
      rw [hp, hh]
      constructor
      · rintro ⟨e, -, he⟩; simp at he
      · rintro ⟨hne, he⟩; exact absurd he hne
  | turn c ht _ hh =>
      rw [hh]
      constructor
      · rintro ⟨e, -, he⟩; simp at he
      · rintro ⟨-, he⟩; exact absurd he (ht.ne_ending k)
  | enter hb hp _ hh =>
      rw [hp, hh]
      constructor
      · rintro ⟨e, -, he⟩; simp at he
      · rintro ⟨-, he⟩; exact absurd he (ne_ending_of_isTerminal_eq_false rfl k)
  | hear e hb hp _ hh =>
      have hne : op.phase ≠ k.phase := by
        rw [hb]; exact ne_ending_of_isTerminal_eq_false rfl k
      constructor
      · rintro ⟨e', he, hh'⟩
        have heq : e = e' := by
          have := hh.symm.trans hh'
          simpa using this
        rw [heq, he] at hp
        exact ⟨hne, hp⟩
      · rintro ⟨-, he⟩
        refine ⟨e, ?_, hh⟩
        cases hen : e.ending? with
        | none =>
            rw [hen] at hp
            exact absurd (he.symm.trans hp).symm (ne_ending_of_isTerminal_eq_false rfl k)
        | some l =>
            rw [hen] at hp
            rw [Ending.phase_injective (hp.symm.trans he)]

/-- Whoever has heard how an operation ends finds it in that phase. -/
theorem EndingAgrees.phase_eq (h : EndingAgrees op) {e : Event α} (he : e ∈ op.heard) {k : Ending}
    (hk : e.ending? = some k) : op.phase = k.phase := by
  by_cases hl : ∃ l : Ending, op.phase = l.phase
  · obtain ⟨l, hl⟩ := hl
    obtain ⟨before, last, hh, hlast, hb⟩ := h.ended l hl
    rw [hh] at he
    rcases List.mem_append.1 he with he | he
    · rw [hb e he] at hk; cases hk
    · rw [List.mem_singleton.1 he, hlast] at hk
      cases hk
      exact hl
  · rw [h.unended (fun l hp => hl ⟨l, hp⟩) e he] at hk
    cases hk

/-- What the listener of an operation hears is the beginning of a history; a stream that
begins with a failure was not registered.  An operation comes to an end of its own at the
event that says so and at no other, it is over already when that event is heard, and one
that is cancelled never says that it has ended. -/
theorem history_until_ending (plan : Plan α) (moves : List (Move α)) :
    let op := (run plan moves (create plan)).1
    (∃ h, IsHistory plan.kind h ∧ op.heard <+: h) ∧
    (plan.kind = .stream → ∀ e, [.failed e] <+: op.heard →
      (feed plan moves (create plan) {}).outcome = some (.error e)) ∧
    (∀ m k, (∃ e, e.ending? = some k ∧ (op.step plan m).1.heard = op.heard ++ [e]) ↔
      op.phase ≠ k.phase ∧ (op.step plan m).1.phase = k.phase) ∧
    (∀ e ∈ op.heard, ∀ k, e.ending? = some k → op.phase = k.phase) ∧
    (op.phase = .cancelled → ∀ e ∈ op.heard, e.isTerminal = false) := by
  intro op
  have ha := endingAgrees_run plan moves
  refine ⟨heard_isHistory plan moves, fun hk e he => outcome_of_heard_failed hk moves he,
    fun m k => (step_effect plan op m).ends_iff_heard k,
    fun e he k hk => ha.phase_eq he hk, fun hc e he => ?_⟩
  have hne : ∀ k : Ending, op.phase ≠ k.phase := by
    intro k
    rw [hc]
    cases k <;> simp [Ending.phase]
  exact Event.isTerminal_of_none (ha.unended hne e he)

end Operation
end Switchboard
