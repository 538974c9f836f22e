import Switchboard.Proofs.Operation.Ending

/-!
# Switchboard.Proofs.Operation.Feed

What a stream is told by others over a run, and the events that its listener should
hear of it.

* `Feed` — how the subscription was registered, and the messages sent for it;
* `Feed.script` — the events of a feed in the order in which they came;
* `Feed.events` — the same, up to the first that ends the stream;
* `feed` — the feed of a run;
* `prefix_events` — what is heard of a script goes no further than its end.
-/

namespace Switchboard

variable {α : Type}

/-! ## Up to the end -/

namespace Event

/-- Events up to the first that nothing can follow. -/
def untilEnd : List (Event α) → List (Event α)
  | [] => []
  | e :: rest => if e.isTerminal then [e] else e :: untilEnd rest

theorem isTerminal_iff {e : Event α} : e.isTerminal = true ↔ ∃ k, e.ending? = some k := by
  simp [isTerminal, Option.isSome_iff_exists]

theorem isTerminal_of_none {e : Event α} (h : e.ending? = none) : e.isTerminal = false := by
  simp [isTerminal, h]

theorem untilEnd_append {l : List (Event α)} (h : ∀ x ∈ l, x.ending? = none)
    (r : List (Event α)) : untilEnd (l ++ r) = l ++ untilEnd r := by
  induction l with
  | nil => rfl
  | cons e rest ih =>
      have he : e.isTerminal = false := isTerminal_of_none (h e List.mem_cons_self)
      have hrest : ∀ x ∈ rest, x.ending? = none := fun x hx => h x (List.mem_cons_of_mem e hx)
      simp [untilEnd, he, ih hrest]

/-- What nothing can follow is the last. -/
theorem untilEnd_append_of_isTerminal {l : List (Event α)} (h : ∀ x ∈ l, x.ending? = none)
    {e : Event α} (he : e.isTerminal = true) (r : List (Event α)) :
    untilEnd (l ++ e :: r) = l ++ [e] := by
  rw [untilEnd_append h]
  simp [untilEnd, he]

end Event

/-! ## Feeds -/

/-- What others tell a stream. -/
structure Feed where
  /-- The id of the subscription, or why there is none. -/
  outcome : Option (Except ApiError String) := none
  /-- The messages sent for the subscription, in order. -/
  sent : List StreamMessage := []

namespace Feed

/-- All the events of a feed: the subscription is established, and then each message is
an event; or it could not be registered. -/
def script (decode : Json → Except ApiError α) (f : Feed) : List (Event α) :=
  match f.outcome with
  | none => []
  | some (.ok id) => .established id :: f.sent.map (·.toEvent decode)
  | some (.error e) => [.failed e]

/-- What a listener is to hear of a feed. -/
def events (decode : Json → Except ApiError α) (f : Feed) : List (Event α) :=
  Event.untilEnd (f.script decode)

/-- What becomes of a feed with one move.  An answer of the endpoint counts if the
operation waits for one, and a message if more can come. -/
def after (f : Feed) (op : Operation α) : Operation.Move α → Feed
  | .registered r => match op.stage with
    | .registering => { f with outcome := some r }
    | _ => f
  | .message m => if op.inboxOpen then { f with sent := f.sent ++ [m] } else f
  | _ => f

theorem script_of_outcome (decode : Json → Except ApiError α) {f : Feed} {id : String}
    (h : f.outcome = some (.ok id)) :
    f.script decode = .established id :: f.sent.map (·.toEvent decode) := by
  simp [script, h]

/-- A message is the next event of a script, -/
theorem script_send (decode : Json → Except ApiError α) {f : Feed} {id : String}
    (h : f.outcome = some (.ok id)) (m : StreamMessage) :
    ({ f with sent := f.sent ++ [m] } : Feed).script decode =
      f.script decode ++ [m.toEvent decode] := by
  simp [script, h]

/-- unless there is no subscription. -/
theorem script_send_of_error (decode : Json → Except ApiError α) {f : Feed} {e : ApiError}
    (h : f.outcome = some (.error e)) (m : StreamMessage) :
    ({ f with sent := f.sent ++ [m] } : Feed).script decode = f.script decode := by
  simp [script, h]

theorem script_prefix_send (decode : Json → Except ApiError α) (f : Feed) (m : StreamMessage) :
    f.script decode <+: ({ f with sent := f.sent ++ [m] } : Feed).script decode := by
  cases ho : f.outcome with
  | none => simp [script, ho]
  | some r =>
      cases r with
      | error e => simp [script, ho]
      | ok id => rw [← ho, script_send decode ho]; exact List.prefix_append ..

end Feed

namespace Operation

variable {plan : Plan α} {op : Operation α} {f : Feed} {decode : Json → Except ApiError α}

/-- What others have told an operation, with all that happens to it in a row. -/
def feed (plan : Plan α) : List (Move α) → Operation α → Feed → Feed
  | [], _, f => f
  | m :: rest, op, f => feed plan rest (op.step plan m).1 (f.after op m)

/-- What a feed and an operation have in common before every move they have after it,
and so after every run. -/
theorem feed_invariant {P : Feed → Operation α → Prop}
    (hstep : ∀ f op m, P f op → P (f.after op m) (op.step plan m).1) (moves : List (Move α))
    {f : Feed} {op : Operation α} (h : P f op) :
    P (feed plan moves op f) (run plan moves op).1 := by
  induction moves generalizing op f with
  | nil => exact h
  | cons m rest ih => exact ih (hstep f op m h)

/-- A listener that has heard what ended the stream has heard all. -/
theorem heard_eq_events_of_ending (ha : EndingAgrees op) {k : Ending} (hk : op.phase = k.phase)
    (h : op.heard <+: f.script decode) : op.heard = f.events decode := by
  obtain ⟨rest, hrest⟩ := h
  obtain ⟨before, e, hh, he, hb⟩ := ha.ended k hk
  unfold Feed.events
  rw [← hrest, hh, List.append_assoc, List.singleton_append,
    Event.untilEnd_append_of_isTerminal hb (Event.isTerminal_iff.2 ⟨k, he⟩)]

/-- One that hears the script from its start hears nothing beyond the end. -/
theorem prefix_events (ha : EndingAgrees op) (h : op.heard <+: f.script decode) :
    op.heard <+: f.events decode := by
  by_cases hk : ∃ k : Ending, op.phase = k.phase
  · obtain ⟨k, hk⟩ := hk
    have heq := heard_eq_events_of_ending ha hk h
    exact ⟨[], (List.append_nil _).trans heq⟩
  · have hopen : ∀ k : Ending, op.phase ≠ k.phase := fun k hp => hk ⟨k, hp⟩
    obtain ⟨rest, hrest⟩ := h
    unfold Feed.events
    rw [← hrest, Event.untilEnd_append (ha.unended hopen)]
    exact List.prefix_append ..

/-- One that has heard the whole script has heard all there is to hear. -/
theorem heard_eq_events_of_script (ha : EndingAgrees op) (h : op.heard = f.script decode) :
    op.heard = f.events decode := by
  by_cases hk : ∃ k : Ending, op.phase = k.phase
  · obtain ⟨k, hk⟩ := hk
    exact heard_eq_events_of_ending ha hk (h ▸ List.prefix_rfl)
  · have hopen : ∀ k : Ending, op.phase ≠ k.phase := fun k hp => hk ⟨k, hp⟩
    have hu := Event.untilEnd_append (ha.unended hopen) []
    unfold Feed.events
    rw [← h]
    simpa [Event.untilEnd] using hu.symm

end Operation
end Switchboard
