import Switchboard.Proofs.Operation.Feed

/-!
# Switchboard.Proofs.Operation.Stream

A stream delivers what it is told in order.  An event is in one of three places: the
listener has heard it, it is pending, or its message waits in the inbox.  Each step
moves events from one place to the next, and the three together are always the script.

* `FeedInvariant` — what holds of a stream and its feed at each stage of the worker;
* `SameEvents`, `FeedInvariant.frame` — what moves no event leaves it as it is;
* `Work.feedInvariant`, `feedInvariant_step` — every move of an event keeps it;
* `feedInvariant_run` — so it holds after every run;
* `FeedInvariant.prefix_script` — and the listener has heard the script up to some point.
-/

namespace Switchboard.Operation

variable {α : Type} {plan : Plan α} {op op' : Operation α} {f : Feed}

/-! ## What holds at each stage -/

/-- The events of the messages that the worker will still take. -/
def untaken (plan : Plan α) (op : Operation α) : List (Event α) :=
  if op.listening then op.inbox.map (·.toEvent plan.decode) else []

/-- Nothing is delivered yet, and every message is in the inbox. -/
structure NothingDelivered (outcome : Option (Except ApiError String)) (f : Feed)
    (op : Operation α) : Prop where
  outcome : f.outcome = outcome
  heard : op.heard = []
  pending : op.pending = []
  inbox : op.inbox = f.sent
  listening : op.listening = true

/-- The script gets no longer. -/
def Exhausted (f : Feed) (op : Operation α) : Prop :=
  (∃ e, f.outcome = some (.error e)) ∨ op.inboxOpen = false

/-- What was heard, what is pending and what was not taken make up the script. -/
structure ScriptInParts (plan : Plan α) (f : Feed) (op : Operation α) : Prop where
  entered : Phase.running.rank ≤ op.phase.rank
  script : op.heard ++ op.pending ++ untaken plan op = f.script plan.decode
  listening : op.listening = true → ∃ id, f.outcome = some (.ok id)
  deaf : op.listening = false → Exhausted f op

/-- The worker delivers nothing more, because the operation is over or all is said. -/
structure DeliveryOver (plan : Plan α) (f : Feed) (op : Operation α) : Prop where
  script : op.heard <+: f.script plan.decode
  done : op.phase.isTerminal = true ∨ op.heard = f.script plan.decode ∧ Exhausted f op

/-- What holds of a stream and its feed while the worker is at a stage. -/
def FeedInvariant (plan : Plan α) (f : Feed) (op : Operation α) : Stage α → Prop
  | .arriving | .checking _ | .waiting _ => NothingDelivered none f op
  | .admitted | .registering => NothingDelivered none f op ∧ Phase.running.rank ≤ op.phase.rank
  | .storing id | .confirming id =>
    NothingDelivered (some (.ok id)) f op ∧ Phase.running.rank ≤ op.phase.rank
  | .watching => ScriptInParts plan f op
  | .flushing seen | .hearing _ _ (some seen) =>
    ScriptInParts plan f op ∧ seen ≤ op.gate.version
  -- a worker that has seen every change has delivered what it could
  | .deciding seen | .selecting seen =>
    ScriptInParts plan f op ∧ seen ≤ op.gate.version ∧
      (op.phase = .running → seen = op.gate.version → op.pending = [])
  | .closing | .unregistering _ => DeliveryOver plan f op
  | .finished => NothingDelivered none f op ∨ DeliveryOver plan f op
  -- these are stages of operations with one response
  | .sending | .answered _ | .hearing _ _ none => False

/-! ## What leaves events where they are -/

/-- No event moves, whatever becomes of the gate and the worker. -/
structure SameEvents (op op' : Operation α) : Prop where
  effect : Effect op op'
  heard : op'.heard = op.heard
  pending : op'.pending = op.pending
  inbox : op'.inbox = op.inbox
  inboxOpen : op.inboxOpen = false → op'.inboxOpen = false
  listening : op'.listening = op.listening

theorem SameEvents.goto (op : Operation α) (s : Stage α) : SameEvents op (op.goto s) :=
  ⟨.quiet rfl rfl rfl, rfl, rfl, rfl, id, rfl⟩

theorem SameEvents.untaken (h : SameEvents op op') : untaken plan op' = untaken plan op := by
  simp only [Operation.untaken, h.listening, h.inbox]

theorem SameEvents.exhausted (h : SameEvents op op') (he : Exhausted f op) : Exhausted f op' :=
  he.imp id h.inboxOpen

theorem SameEvents.entered (h : SameEvents op op') (he : Phase.running.rank ≤ op.phase.rank) :
    Phase.running.rank ≤ op'.phase.rank :=
  Nat.le_trans he h.effect.rank_le

theorem NothingDelivered.frame {o : Option (Except ApiError String)} (h : NothingDelivered o f op)
    (hu : SameEvents op op') : NothingDelivered o f op' :=
  ⟨h.outcome, hu.heard.trans h.heard, hu.pending.trans h.pending, hu.inbox.trans h.inbox,
    hu.listening.trans h.listening⟩

theorem ScriptInParts.frame (h : ScriptInParts plan f op) (hu : SameEvents op op') :
    ScriptInParts plan f op' where
  entered := hu.entered h.entered
  script := by rw [hu.heard, hu.pending, hu.untaken]; exact h.script
  listening := fun hl => h.listening (hu.listening.symm.trans hl)
  deaf := fun hl => hu.exhausted (h.deaf (hu.listening.symm.trans hl))

theorem DeliveryOver.frame (h : DeliveryOver plan f op) (hu : SameEvents op op') :
    DeliveryOver plan f op' where
  script := by rw [hu.heard]; exact h.script
  done := by
    rcases h.done with ht | ⟨hs, he⟩
    · exact .inl (by rw [(hu.effect.of_isTerminal ht).1]; exact ht)
    · exact .inr ⟨hu.heard.trans hs, hu.exhausted he⟩

theorem FeedInvariant.frame {s : Stage α} (h : FeedInvariant plan f op s) (hu : SameEvents op op') :
    FeedInvariant plan f op' s := by
  have hv := hu.effect.version_le
  cases s with
  | arriving | checking _ | waiting _ => exact NothingDelivered.frame h hu
  | admitted | registering | storing _ | confirming _ =>
      exact ⟨NothingDelivered.frame h.1 hu, hu.entered h.2⟩
  | watching => exact ScriptInParts.frame h hu
  | flushing seen => exact ⟨ScriptInParts.frame h.1 hu, Nat.le_trans h.2 hv⟩
  | hearing _ _ seen =>
      cases seen with
      | none => exact h
      | some seen => exact ⟨ScriptInParts.frame h.1 hu, Nat.le_trans h.2 hv⟩
  | deciding seen | selecting seen =>
      obtain ⟨hd, hseen, hp⟩ := h
      refine ⟨hd.frame hu, Nat.le_trans hseen hv, fun hr hs => ?_⟩
      have hphase : op'.phase = op.phase := hu.effect.phase_eq (by omega) hu.heard
      rw [hu.pending]
      exact hp (hphase.symm.trans hr) (by omega)
  | closing | unregistering _ => exact DeliveryOver.frame h hu
  | finished => exact h.imp (·.frame hu) (·.frame hu)
  | sending | answered _ => exact h

/-! ## Steps of the worker -/

/-- Nothing is heard of a script before its first event. -/
theorem NothingDelivered.leaves {o : Option (Except ApiError String)} (h : NothingDelivered o f op)
    (ht : op.phase.isTerminal = true) : DeliveryOver plan f op :=
  ⟨by rw [h.heard]; exact List.nil_prefix, .inl ht⟩

/-- What was heard is the beginning of the script. -/
theorem ScriptInParts.prefix_script (h : ScriptInParts plan f op) :
    op.heard <+: f.script plan.decode :=
  ⟨op.pending ++ untaken plan op, by rw [← List.append_assoc]; exact h.script⟩

/-- Once nothing is pending and nothing more is taken, all of the script was heard. -/
theorem ScriptInParts.heard_eq (h : ScriptInParts plan f op) (hp : op.pending = [])
    (hu : untaken plan op = []) : op.heard = f.script plan.decode := by
  have hs := h.script
  rwa [hp, hu, List.append_nil, List.append_nil] at hs

/-- The first pending event goes to the listener. -/
theorem ScriptInParts.hear (h : ScriptInParts plan f op) {e : Event α} {rest : List (Event α)}
    (hq : op.pending = e :: rest) (hp : op.phase = .running) (seen : Option Nat) :
    ScriptInParts plan f (({ op with pending := rest }.accept e).notify plan e seen) where
  entered := Nat.le_trans h.entered (Effect.of_notify plan hp rest e seen).rank_le
  script := by
    have hs := h.script
    rw [hq] at hs
    have hu : untaken plan (({ op with pending := rest }.accept e).notify plan e seen) =
        untaken plan op := rfl
    have hr : (({ op with pending := rest }.accept e).notify plan e seen).pending = rest := rfl
    rw [heard_notify, hu, hr, ← hs]
    simp [accept, withGate, heard]
  listening := h.listening
  deaf := h.deaf

/-- The first message of the inbox becomes pending. -/
theorem ScriptInParts.take (h : ScriptInParts plan f op) {m : StreamMessage}
    {rest : List StreamMessage}
    (hl : op.listening = true) (hi : op.inbox = m :: rest) (s : Stage α) :
    ScriptInParts plan f
      { op with
        inbox := rest, pending := op.pending ++ [m.toEvent plan.decode], stage := s } where
  entered := h.entered
  script := by
    have hs := h.script
    simp only [untaken, hl, hi, if_true, List.map_cons] at hs ⊢
    rw [← hs]
    simp [heard]
  listening := h.listening
  deaf := h.deaf

/-- The worker learns that no message will come. -/
theorem ScriptInParts.turnAway (h : ScriptInParts plan f op) (hi : op.inbox = [])
    (ho : op.inboxOpen = false) (s : Stage α) :
    ScriptInParts plan f { op with listening := false, stage := s } where
  entered := h.entered
  script := by
    have hs := h.script
    have hu : untaken plan op = [] := by simp [untaken, hi]
    rw [hu] at hs
    rw [← hs]
    simp [untaken, heard]
  listening := fun hl => by cases hl
  deaf := fun _ => .inr ho

/-- The first event of a script becomes pending. -/
theorem NothingDelivered.establish {id : String} (h : NothingDelivered (some (.ok id)) f op)
    (he : Phase.running.rank ≤ op.phase.rank) (s : Stage α) :
    ScriptInParts plan f { op with pending := op.pending ++ [.established id], stage := s } where
  entered := he
  script := by
    have hh : op.notices.map (·.event) = [] := h.heard
    rw [Feed.script_of_outcome _ h.outcome]
    simp [Operation.heard, hh, untaken, h.pending, h.listening, h.inbox]
  listening := fun _ => ⟨id, h.outcome⟩
  deaf := fun hl => absurd (hl.symm.trans h.listening) Bool.false_ne_true

/-- A worker that delivers goes when the operation is over, or when all is said. -/
theorem ScriptInParts.leaves (h : ScriptInParts plan f op)
    (hd : op.phase.isTerminal = true ∨ op.listening = false ∧ op.pending = []) :
    DeliveryOver plan f op := by
  refine ⟨h.prefix_script, hd.imp id fun ⟨hl, hq⟩ => ⟨?_, h.deaf hl⟩⟩
  exact h.heard_eq hq (by simp [untaken, hl])

/-- The worker may go on only while the operation runs. -/
theorem entered_of_tryEnter {g : Gate Unit Unit} (h : op.gate.tryEnter = (g, some true)) :
    g.phase = .running := by
  rcases op.gate.tryEnter_true h with ⟨-, rfl⟩ | ⟨hp, rfl⟩
  · rfl
  · exact hp

/-- Every step of a stream's worker follows its feed. -/
theorem Work.feedInvariant (hk : plan.kind = .stream) {r : Operation α × List Demand}
    (h : Work plan op r) (hf : FeedInvariant plan f op op.stage) :
    FeedInvariant plan f r.1 r.1.stage := by
  cases h with
  | stop hs ha =>
      cases hst : op.stage with
      | arriving | waiting _ => rw [hst] at hf; exact .inl (hf.frame (.goto op _))
      | sending => rw [hst] at hf; exact hf.elim
      | _ => rw [hst] at hs; cases hs
  | look hs | lookAgain hs | wait hs => rw [hs] at hf; exact hf.frame (.goto op _)
  | send _ hsingle => rw [hk] at hsingle; cases hsingle
  | register hs => rw [hs] at hf; exact hf.frame (.goto op _)
  | enter hs ht =>
      rw [hs] at hf
      refine ⟨NothingDelivered.frame hf ⟨.of_tryEnter ht _, rfl, rfl, rfl, id, rfl⟩, ?_⟩
      have hp := op.entered_of_tryEnter ht
      exact Nat.le_of_eq (congrArg Phase.rank hp.symm)
  | refuse hs => rw [hs] at hf; exact .inl (hf.frame (.goto op _))
  | report hs | drop hs => rw [hs] at hf; exact hf.elim
  | store hs =>
      rw [hs] at hf
      exact hf.frame ⟨.quiet rfl rfl rfl, rfl, rfl, rfl, id, rfl⟩
  | giveUp hs ht => rw [hs] at hf; exact (hf.1.leaves ht).frame (.goto op _)
  | establish hs => rw [hs] at hf; exact hf.1.establish hf.2 _
  | watch hs => rw [hs] at hf; exact ⟨ScriptInParts.frame hf (.goto op _), Nat.le_refl _⟩
  | @deliver seen hs e rest hq hp =>
      rw [hs] at hf
      have hv := (Effect.of_notify plan hp rest e (some seen)).version_le
      exact ⟨hf.1.hear hq hp _, Nat.le_trans hf.2 hv⟩
  | settle hs hw =>
      rw [hs] at hf
      refine ⟨hf.1.frame (.goto op _), hf.2, fun hr _ => ?_⟩
      rcases hw with hq | ⟨hp, -⟩
      · exact hq
      · exact absurd hr hp
  | shut hs _ ht => rw [hs] at hf; exact (hf.1.leaves (.inl ht)).frame (.goto op _)
  | @pursue p todo seen hs =>
      rw [hs] at hf
      obtain ⟨c, slot, next, hc, hr⟩ := op.hear_some todo seen p
      rw [hr]
      cases seen with
      | none => exact hf.elim
      | some seen => exact hf.frame ⟨.of_keepsPhase hc rfl, rfl, rfl, rfl, id, rfl⟩
  | @call control rest seen hs =>
      rw [hs] at hf
      cases seen with
      | none => exact hf.elim
      | some seen =>
          exact hf.frame ⟨.of_hear_call op control rest _, by simp [hear_call, Operation.heard],
            rfl, rfl, id, rfl⟩
  | @heard seen hs =>
      rw [hs] at hf
      cases seen with
      | none => exact hf.elim
      | some seen => exact hf.frame (.goto op _)
  | leave hs hd => rw [hs] at hf; exact (hf.1.leaves hd).frame (.goto op _)
  | await hs => rw [hs] at hf; exact hf.frame (.goto op _)
  | take hs hl hi => rw [hs] at hf; exact ⟨hf.1.take hl hi _, hf.2.1⟩
  | turnAway hs hl hi ho => rw [hs] at hf; exact ⟨hf.1.turnAway hi ho _, hf.2.1⟩
  | flushAgain hs => rw [hs] at hf; exact ⟨hf.1.frame (.goto op _), Nat.le_refl _⟩
  | close hs =>
      rw [hs] at hf
      exact hf.frame ⟨.quiet rfl rfl rfl, rfl, rfl, rfl, id, rfl⟩
  | finish hs => rw [hs] at hf; exact .inr (hf.frame (.goto op _))

/-! ## Moves of others -/

/-- Another message waits in the inbox. -/
theorem ScriptInParts.send (h : ScriptInParts plan f op) (ho : op.inboxOpen = true)
    (m : StreamMessage) :
    ScriptInParts plan { f with sent := f.sent ++ [m] } { op with inbox := op.inbox ++ [m] } where
  entered := h.entered
  script := by
    have hs := h.script
    cases hl : op.listening with
    | true =>
        obtain ⟨id, hid⟩ := h.listening hl
        rw [Feed.script_send _ hid, ← hs]
        simp [untaken, hl, Operation.heard]
    | false =>
        -- a worker that takes no more messages has been told that there are none
        rcases h.deaf hl with ⟨e, he⟩ | hi
        · rw [Feed.script_send_of_error _ he, ← hs]
          simp [untaken, hl, Operation.heard]
        · rw [ho] at hi; cases hi
  listening := h.listening
  deaf := h.deaf

theorem DeliveryOver.send (h : DeliveryOver plan f op) (ho : op.inboxOpen = true)
    (m : StreamMessage) :
    DeliveryOver plan { f with sent := f.sent ++ [m] } { op with inbox := op.inbox ++ [m] } where
  script := h.script.trans (f.script_prefix_send plan.decode m)
  done := by
    refine h.done.imp id fun ⟨hs, he⟩ => ⟨?_, he⟩
    rcases he with ⟨e, he⟩ | hi
    · rw [Feed.script_send_of_error _ he]
      exact hs
    · rw [ho] at hi; cases hi

theorem NothingDelivered.send {o : Option (Except ApiError String)} (h : NothingDelivered o f op)
    (m : StreamMessage) :
    NothingDelivered o { f with sent := f.sent ++ [m] } { op with inbox := op.inbox ++ [m] } :=
  ⟨h.outcome, h.heard, h.pending, congrArg (· ++ [m]) h.inbox, h.listening⟩

theorem FeedInvariant.send {s : Stage α} (h : FeedInvariant plan f op s) (ho : op.inboxOpen = true)
    (m : StreamMessage) :
    FeedInvariant plan { f with sent := f.sent ++ [m] } { op with inbox := op.inbox ++ [m] } s := by
  cases s with
  | arriving | checking _ | waiting _ => exact NothingDelivered.send h m
  | admitted | registering | storing _ | confirming _ => exact ⟨NothingDelivered.send h.1 m, h.2⟩
  | watching => exact ScriptInParts.send h ho m
  | flushing _ => exact ⟨ScriptInParts.send h.1 ho m, h.2⟩
  | hearing _ _ seen =>
      cases seen with
      | none => exact h
      | some _ => exact ⟨ScriptInParts.send h.1 ho m, h.2⟩
  | deciding _ | selecting _ => exact ⟨ScriptInParts.send h.1 ho m, h.2⟩
  | closing | unregistering _ => exact DeliveryOver.send h ho m
  | finished => exact h.imp (·.send m) (·.send ho m)
  | sending | answered _ => exact h

/-- A subscription that is not registered is a failure, and all there is to hear. -/
theorem NothingDelivered.fail (h : NothingDelivered none f op)
    (he : Phase.running.rank ≤ op.phase.rank)
    (e : ApiError) (s : Stage α) :
    ScriptInParts plan { f with outcome := some (.error e) }
      { op with listening := false, pending := op.pending ++ [.failed e], stage := s } where
  entered := he
  script := by
    have hh : op.notices.map (·.event) = [] := h.heard
    simp [Feed.script, Operation.heard, hh, untaken, h.pending]
  listening := fun hl => absurd hl Bool.false_ne_true
  deaf := fun _ => .inl ⟨e, rfl⟩

/-- Every move of a stream follows its feed. -/
theorem feedInvariant_step (hk : plan.kind = .stream) (m : Move α)
    (hf : FeedInvariant plan f op op.stage) :
    FeedInvariant plan (f.after op m) (op.step plan m).1 (op.step plan m).1.stage := by
  cases m with
  | control c =>
      rcases op.step_control plan c with hr | ⟨-, q, pursuits, hq, hr⟩
      · rw [hr]; exact hf
      · rw [hr]; exact hf.frame ⟨.turn c hq rfl rfl, rfl, rfl, rfl, id, rfl⟩
  | pursue i =>
      obtain ⟨controller, slot, hc, hr⟩ := op.step_pursue plan i
      rw [hr]
      exact hf.frame ⟨.of_keepsPhase hc rfl, rfl, rfl, rfl, id, rfl⟩
  | work first =>
      rcases op.step_work plan first with hr | ⟨-, hw⟩
      · rw [hr]; exact hf
      · exact hw.feedInvariant hk hf
  | answer r =>
      simp only [step, answer]
      split
      · next hs _ => rw [hs] at hf; exact hf.elim
      · exact hf
  | registered r =>
      cases hs : op.stage with
      | registering =>
          rw [hs] at hf
          simp only [Feed.after, step, registered, hs]
          cases r with
          | ok id => exact ⟨⟨rfl, hf.1.heard, hf.1.pending, hf.1.inbox, hf.1.listening⟩, hf.2⟩
          | error e => exact hf.1.fail hf.2 e _
      | _ => rw [hs] at hf; simp only [Feed.after, step, registered, hs]; exact hf
  | unregistered =>
      simp only [step, unregistered]
      split
      · next hs => rw [hs] at hf; exact .inr (hf.frame (.goto op _))
      · exact hf
  | message m =>
      simp only [Feed.after, step, message]
      split
      · next ho => exact hf.send ho m
      · exact hf
  | hangUp => exact hf.frame ⟨.quiet rfl rfl rfl, rfl, rfl, rfl, fun _ => rfl, rfl⟩

theorem feedInvariant_create (plan : Plan α) :
    FeedInvariant plan {} (create plan) (create plan).stage :=
  ⟨rfl, rfl, rfl, rfl, rfl⟩

/-- A stream follows its feed through every run. -/
theorem feedInvariant_run (hk : plan.kind = .stream) (moves : List (Move α)) :
    FeedInvariant plan (feed plan moves (create plan) {}) (run plan moves (create plan)).1
      (run plan moves (create plan)).1.stage :=
  feed_invariant (P := fun f op => FeedInvariant plan f op op.stage)
    (fun _ _ m hf => feedInvariant_step hk m hf) moves (feedInvariant_create plan)

/-! ## What was heard -/

/-- At each stage the listener has heard the beginning of the script. -/
theorem FeedInvariant.prefix_script (hf : FeedInvariant plan f op op.stage) :
    op.heard <+: f.script plan.decode := by
  have hnil : op.heard = [] → op.heard <+: f.script plan.decode := fun h => by
    rw [h]; exact List.nil_prefix
  cases hs : op.stage with
  | arriving | checking _ | waiting _ => rw [hs] at hf; exact hnil (NothingDelivered.heard hf)
  | admitted | registering | storing _ | confirming _ => rw [hs] at hf; exact hnil hf.1.heard
  | sending | answered _ => rw [hs] at hf; exact hf.elim
  | watching => rw [hs] at hf; exact ScriptInParts.prefix_script hf
  | flushing _ | deciding _ | selecting _ => rw [hs] at hf; exact hf.1.prefix_script
  | hearing _ _ seen =>
      rw [hs] at hf
      cases seen with
      | none => exact hf.elim
      | some _ => exact hf.1.prefix_script
  | closing | unregistering _ => rw [hs] at hf; exact DeliveryOver.script hf
  | finished =>
      rw [hs] at hf
      rcases hf with hf | hf
      · exact hnil hf.heard
      · exact hf.script

end Switchboard.Operation
