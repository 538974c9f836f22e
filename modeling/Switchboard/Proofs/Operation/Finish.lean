import Switchboard.Proofs.Operation.EndingToCome
import Switchboard.Proofs.Operation.Wake

/-!
# Switchboard.Proofs.Operation.Finish

A worker that can be reached can finish its operation.  Wherever the operation stands, as soon
as it is started there is a way on to its end, without a call to cancel from elsewhere and
whatever the listener does: a start under way hands the worker over, a paused operation is
resumed, what was asked for is answered, and what is pending is delivered.

* `Reached`, `CanEnd` — operations that can be reached, and those that can come to their end;
* `Reached.canEnd_of_step`, `Reached.work`, `Reached.unpause` — one step on the way;
* `undelivered` — how much a stream has still to deliver;
* `Reached.canEnd_of_delivers` — a stream that delivers comes to its end;
* `Reached.canEnd` — so does every operation that is started.
-/

namespace Switchboard

/-- How many steps there are to a call that goes on with this one. -/
def Pursuit.steps : Pursuit → Nat
  | spawn => 4
  | keep | abort => 3
  | recheck | hook => 2
  | retract | release => 1

/-- Each step of a call is followed by fewer. -/
theorem Controller.steps_lt {c : Controller} {p q : Pursuit} (h : (c.pursue p).2.1 = some q) :
    q.steps < p.steps := by
  cases p with
  | spawn | keep | recheck => simp only [pursue] at h; split at h <;> cases h <;> decide
  | abort | hook => cases h; decide
  | retract | release => cases h

namespace Operation

variable {α : Type} {plan : Plan α} {op op' : Operation α} {r : Operation α × List Demand}

/-! ## Ways on -/

/-- Without a call to cancel from elsewhere, the operation can come to its end. -/
def CanEnd (plan : Plan α) (op : Operation α) : Prop :=
  ∃ moves, .control .cancel ∉ moves ∧ (run plan moves op).1.phase.isTerminal = true

theorem CanEnd.of_isTerminal (plan : Plan α) (h : op.phase.isTerminal = true) : CanEnd plan op :=
  ⟨[], nofun, h⟩

/-- Unless the operation is over there is a way on. -/
theorem CanEnd.of_open (h : op.phase.isTerminal = false → CanEnd plan op) : CanEnd plan op := by
  cases ht : op.phase.isTerminal with
  | true => exact .of_isTerminal plan ht
  | false => exact h ht

theorem CanEnd.of_step {m : Move α} (hm : m ≠ .control .cancel)
    (h : CanEnd plan (op.step plan m).1) : CanEnd plan op := by
  obtain ⟨moves, hc, ht⟩ := h
  exact ⟨m :: moves, fun hmem => (List.mem_cons.1 hmem).elim (fun he => hm he.symm) hc, ht⟩

/-- An operation that can be reached, and whose worker has something to come. -/
structure Reached (plan : Plan α) (op : Operation α) : Prop where
  moves : ∃ moves, op = (run plan moves (create plan)).1
  workerInvariant : WorkerInvariant plan op

theorem Reached.step (h : Reached plan op) (m : Move α)
    (hclose : m = .hangUp → plan.kind = .stream → HasEndingToCome op.hangUp) :
    Reached plan (op.step plan m).1 := by
  refine ⟨?_, workerInvariant_step h.workerInvariant m hclose⟩
  obtain ⟨moves, rfl⟩ := h.moves
  exact ⟨moves ++ [m], (run_append_fst plan moves [m] _).symm⟩

theorem Reached.feedInvariant (h : Reached plan op) (hk : plan.kind = .stream) :
    ∃ f, FeedInvariant plan f op op.stage := by
  obtain ⟨moves, rfl⟩ := h.moves
  exact ⟨_, feedInvariant_run hk moves⟩

theorem Reached.knowsChanges (h : Reached plan op) : KnowsChanges op op.stage := by
  obtain ⟨moves, rfl⟩ := h.moves
  exact knowsChanges_run plan moves

/-- One step on the way, which is no call to cancel and does not close the inbox. -/
theorem Reached.canEnd_of_step (h : Reached plan op) {m : Move α} (hcancel : m ≠ .control .cancel)
    (hclose : m ≠ .hangUp) (hstep : (op.step plan m).1 = op')
    (next : Reached plan op' → CanEnd plan op') : CanEnd plan op := by
  subst hstep
  exact .of_step hcancel (next (h.step m fun he => absurd he hclose))

/-- A worker that takes a step goes on from there. -/
theorem Reached.work (h : Reached plan op) (hseat : op.isSeated = true) (hw : Work plan op r)
    (next : Reached plan r.1 → CanEnd plan r.1) : CanEnd plan op := by
  obtain ⟨first, hfirst⟩ := hw.exists_work? hseat
  refine h.canEnd_of_step (m := .work first) (fun he => by cases he) (fun he => by cases he) ?_ next
  simp [Operation.step, hfirst]

/-- A worker that has set out runs, unless its operation is over. -/
theorem Reached.spawned (h : Reached plan op) (hs : op.stage ≠ .arriving)
    (ht : op.phase.isTerminal = false) : op.controller.seat = .spawned :=
  h.workerInvariant.spawned hs fun hc => by rw [hc] at ht; cases ht

theorem isSeated_of_spawned (h : op.controller.seat = .spawned) : op.isSeated = true := by
  simp [isSeated, h, Seat.isTaken]

/-- What a stream has at hand, and what is still to come, is the same. -/
structure SameMessages (op op' : Operation α) : Prop where
  pending : op'.pending = op.pending
  inbox : op'.inbox = op.inbox
  inboxOpen : op'.inboxOpen = op.inboxOpen
  listening : op'.listening = op.listening

/-- An operation that is paused is resumed, unless its listener holds the gate. -/
theorem Reached.unpause (h : Reached plan op) (hl : op.isHearing = false)
    (hstarted : op.phase ≠ .created) (ht : op.phase.isTerminal = false)
    (next : ∀ op', Reached plan op' → op'.phase = .started ∨ op'.phase = .running →
      op'.stage = op.stage → SameMessages op op' → CanEnd plan op') : CanEnd plan op := by
  cases hp : op.phase with
  | created => exact absurd hp hstarted
  | started => exact next op h (.inl hp) rfl ⟨rfl, rfl, rfl, rfl⟩
  | running => exact next op h (.inr hp) rfl ⟨rfl, rfl, rfl, rfl⟩
  | paused back =>
      have hstep : (op.step plan (.control .resume)).1 =
          { op with controller := { op.controller with gate := op.gate.set back.phase } } := by
        have hg : op.controller.gate.control? .resume = some (op.gate.set back.phase) := by
          have hturn : op.gate.phase.control? op.gate.kind .resume = some back.phase :=
            Phase.turn_iff.2 (by rw [show op.gate.phase = _ from hp]; exact .resume back)
          rw [Gate.control?_eq]
          exact congrArg (Option.map op.gate.set) hturn
        simp [Operation.step, hl, Controller.call, Controller.enact, hg, Control.next?]
      refine h.canEnd_of_step (m := .control .resume) (fun he => by cases he)
        (fun he => by cases he) hstep fun hnext => ?_
      exact next _ hnext (by cases back <;> simp [phase, gate, Resumption.phase]) rfl
        ⟨rfl, rfl, rfl, rfl⟩
  | completed | cancelled | failed => rw [hp] at ht; cases ht

/-! ## Delivering -/

/-- How much a stream has still to deliver of what it was told. -/
def undelivered (plan : Plan α) (op : Operation α) : Nat :=
  op.pending.length + (untaken plan op).length

theorem SameMessages.undelivered (h : SameMessages op op') :
    op'.undelivered plan = op.undelivered plan := by
  simp only [Operation.undelivered, untaken, h.pending, h.inbox, h.listening]

/-- Whether a worker at a stage delivers events. -/
def delivers : Stage α → Bool
  | .watching | .flushing _ | .hearing _ _ (some _) | .deciding _ | .selecting _ => true
  | _ => false

/-- A stream that delivers, and to which no more messages can come, at a stage of its worker. -/
structure Delivering (plan : Plan α) (op : Operation α) (s : Stage α) (n : Nat) : Prop where
  reached : Reached plan op
  kind : plan.kind = .stream
  inboxOpen : op.inboxOpen = false
  stage : op.stage = s
  undelivered : op.undelivered plan ≤ n

/-- Streams with less to deliver come to their end. -/
def EndsBelow (plan : Plan α) (n : Nat) : Prop :=
  ∀ op s m, delivers s = true → m < n → Delivering plan op s m → CanEnd plan op

variable {s : Stage α} {n : Nat}

theorem Delivering.hasEndingToCome (h : Delivering plan op s n) : HasEndingToCome op :=
  h.reached.workerInvariant.endingToCome.hasEndingToCome h.kind

theorem Delivering.isSeated (h : Delivering plan op s n) (hs : s ≠ .arriving)
    (ht : op.phase.isTerminal = false) : op.isSeated = true :=
  isSeated_of_spawned (h.reached.spawned (h.stage ▸ hs) ht)

/-- The worker takes a step that leaves the messages as they are. -/
theorem Delivering.work (h : Delivering plan op s n) (hs : s ≠ .arriving)
    (ht : op.phase.isTerminal = false) (hw : Work plan op r) (hm : SameMessages op r.1)
    (next : Delivering plan r.1 r.1.stage n → CanEnd plan r.1) : CanEnd plan op := by
  refine h.reached.work (h.isSeated hs ht) hw fun hr => next ?_
  exact ⟨hr, h.kind, hm.inboxOpen.trans h.inboxOpen, rfl, hm.undelivered ▸ h.undelivered⟩

/-- A stream that delivers has been let on its way. -/
theorem Delivering.entered (h : Delivering plan op s n) (hs : delivers s = true) :
    Phase.running.rank ≤ op.phase.rank := by
  obtain ⟨f, hf⟩ := h.reached.feedInvariant h.kind
  rw [h.stage] at hf
  cases s with
  | watching => exact ScriptInParts.entered hf
  | flushing | deciding | selecting => exact hf.1.entered
  | hearing _ _ seen =>
      cases seen with
      | none => cases hs
      | some _ => exact hf.1.entered
  | _ => cases hs

/-- It runs, once it is resumed. -/
theorem Delivering.unpause (h : Delivering plan op s n) (hs : delivers s = true)
    (hl : op.isHearing = false) (ht : op.phase.isTerminal = false)
    (next : ∀ op', Delivering plan op' s n → op'.phase = .running → CanEnd plan op') :
    CanEnd plan op := by
  have hentered := h.entered hs
  refine h.reached.unpause hl (fun hp => ?_) ht fun op' hr hp hstage hm => ?_
  · rw [hp] at hentered
    exact absurd hentered (by decide)
  · have h' : Delivering plan op' s n :=
      ⟨hr, h.kind, hm.inboxOpen.trans h.inboxOpen, hstage.trans h.stage,
        hm.undelivered ▸ h.undelivered⟩
    refine next op' h' (hp.resolve_left fun hp => ?_)
    have hentered' := h'.entered hs
    rw [hp] at hentered'
    exact absurd hentered' (by decide)

/-- The first pending event is heard, and there is less to deliver. -/
theorem Delivering.canEnd_deliver {seen : Nat} (h : Delivering plan op (.flushing seen) n)
    (ih : EndsBelow plan n) (hp : op.phase = .running) (hq : op.pending ≠ []) :
    CanEnd plan op := by
  obtain ⟨e, rest, hq⟩ := List.exists_cons_of_ne_nil hq
  have hseat := h.isSeated nofun (by rw [hp]; rfl)
  refine h.reached.work hseat (.deliver h.stage hq hp) fun hr => ?_
  have hless := h.undelivered
  simp only [Operation.undelivered, hq, List.length_cons] at hless
  exact ih _ _ (n - 1) rfl (by omega) ⟨hr, h.kind, h.inboxOpen, rfl, by
    have hu : untaken plan (({ op with pending := rest }.accept e).notify plan e (some seen)) =
        untaken plan op := rfl
    have hpending : (({ op with pending := rest }.accept e).notify plan e (some seen)).pending =
        rest := rfl
    simp only [Operation.undelivered, hu, hpending]
    omega⟩

/-- A worker that waits for a change or a message finds one: what ends the stream is pending or
in the inbox. -/
theorem Delivering.canEnd_selecting {seen : Nat} (h : Delivering plan op (.selecting seen) n)
    (ih : EndsBelow plan n) : CanEnd plan op := by
  have hne : (.selecting seen : Stage α) ≠ .arriving := nofun
  refine .of_open fun ht => ?_
  refine h.unpause rfl (by simp [isHearing, h.stage]) ht fun op h hp => ?_
  have ht : op.phase.isTerminal = false := by rw [hp]; rfl
  cases hi : untaken plan op with
  | cons _ _ =>
      have hl : op.listening = true := by
        cases hl : op.listening with
        | true => rfl
        | false => simp [untaken, hl] at hi
      cases hin : op.inbox with
      | nil => simp [untaken, hin] at hi
      | cons m rest =>
          refine h.reached.work (h.isSeated hne ht) (.take h.stage hl hin) fun hr => ?_
          refine Delivering.canEnd_deliver (n := n) ⟨hr, h.kind, h.inboxOpen, rfl, ?_⟩ ih hp
            (by simp)
          have hless := h.undelivered
          simp only [Operation.undelivered, untaken, hl, hin, if_true, List.map_cons,
            List.length_append, List.length_cons, List.length_map, List.length_nil] at hless ⊢
          omega
  | nil =>
      have hq : op.pending ≠ [] := by
        intro hq
        cases h.hasEndingToCome with
        | ended hover => rw [ht] at hover; cases hover
        | pending he => rw [hq] at he; cases he
        | inbox hl hm =>
            rw [untaken, if_pos hl] at hi
            rw [List.map_eq_nil_iff.1 hi] at hm
            cases hm
        | prospect _ ho => rw [h.inboxOpen] at ho; cases ho
      have hchanged : seen ≠ op.gate.version := by
        obtain ⟨f, hf⟩ := h.reached.feedInvariant h.kind
        rw [h.stage] at hf
        exact fun hv => hq (hf.2.2 hp hv)
      refine h.work hne ht (.flushAgain h.stage hchanged) ⟨rfl, rfl, rfl, rfl⟩ fun h => ?_
      exact h.canEnd_deliver ih hp hq

theorem Delivering.canEnd_deciding {seen : Nat} (h : Delivering plan op (.deciding seen) n)
    (ih : EndsBelow plan n) : CanEnd plan op := by
  refine .of_open fun ht => ?_
  have hmore : op.listening = true ∨ op.pending ≠ [] := by
    cases hl : op.listening with
    | true => exact .inl rfl
    | false =>
        refine .inr fun hq => ?_
        rw [h.hasEndingToCome.isTerminal hl hq] at ht
        cases ht
  refine h.work nofun ht (.await h.stage ht hmore) ⟨rfl, rfl, rfl, rfl⟩ fun h => ?_
  exact h.canEnd_selecting ih

theorem Delivering.canEnd_flushing {seen : Nat} (h : Delivering plan op (.flushing seen) n)
    (ih : EndsBelow plan n) : CanEnd plan op := by
  refine .of_open fun ht => ?_
  refine h.unpause rfl (by simp [isHearing, h.stage]) ht fun op h hp => ?_
  by_cases hq : op.pending = []
  · have ht : op.phase.isTerminal = false := by rw [hp]; rfl
    refine h.work nofun ht (.settle h.stage (.inl hq)) ⟨rfl, rfl, rfl, rfl⟩ fun h => ?_
    exact h.canEnd_deciding ih
  · exact h.canEnd_deliver ih hp hq

/-- A listener that is in the middle of a call comes to the end of it. -/
theorem Delivering.canEnd_pursuing {todo : List Control} {seen : Nat} {next : Option Pursuit}
    (hdone : ∀ op, Delivering plan op (.hearing none todo (some seen)) n → CanEnd plan op)
    (h : Delivering plan op (.hearing next todo (some seen)) n) : CanEnd plan op := by
  cases next with
  | none => exact hdone op h
  | some p =>
      induction hsteps : p.steps using Nat.strongRecOn generalizing op p with
      | ind k ih =>
          refine .of_open fun ht => ?_
          refine h.work nofun ht (.pursue h.stage) ?_ fun h' => ?_
          · obtain ⟨c, slot, next, -, hr⟩ := op.hear_some todo (some seen) p
            rw [hr]
            exact ⟨rfl, rfl, rfl, rfl⟩
          · have hstage : (op.hear todo (some seen) (some p)).1.stage =
                .hearing (op.controller.pursue p).2.1 todo (some seen) := by
              rw [hear, follow_fst]
            rw [hstage] at h'
            cases hq : (op.controller.pursue p).2.1 with
            | none => rw [hq] at h'; exact hdone _ h'
            | some q =>
                rw [hq] at h'
                exact ih q.steps (hsteps ▸ Controller.steps_lt hq) q h' rfl

/-- A listener makes the calls that it has to make, and then the worker goes on. -/
theorem Delivering.canEnd_hearing {next : Option Pursuit} {todo : List Control} {seen : Nat}
    (h : Delivering plan op (.hearing next todo (some seen)) n) (ih : EndsBelow plan n) :
    CanEnd plan op := by
  induction todo generalizing op next with
  | nil =>
      refine h.canEnd_pursuing fun op h => ?_
      refine .of_open fun ht => ?_
      refine h.work nofun ht (.heard h.stage) ⟨rfl, rfl, rfl, rfl⟩ fun h => ?_
      exact h.canEnd_flushing ih
  | cons control rest ihrest =>
      refine h.canEnd_pursuing fun op h => ?_
      refine .of_open fun ht => ?_
      refine h.work nofun ht (.call h.stage) ?_ fun h => ?_
      · rw [hear_call]; exact ⟨rfl, rfl, rfl, rfl⟩
      · rw [hear_call] at h; exact ihrest h

/-- A stream that delivers comes to its end: there is less to deliver with every event that is
heard, and the last one ends it. -/
theorem Delivering.canEnd (h : Delivering plan op s n) (hs : delivers s = true) :
    CanEnd plan op := by
  induction n using Nat.strongRecOn generalizing op s with
  | ind n ih =>
      have hbelow : EndsBelow plan n := fun _ _ m hs hm h => ih m hm h hs
      cases s with
      | watching =>
          refine .of_open fun ht => ?_
          refine h.work nofun ht (.watch h.stage) ⟨rfl, rfl, rfl, rfl⟩ fun h => ?_
          exact h.canEnd_flushing hbelow
      | flushing => exact h.canEnd_flushing hbelow
      | hearing _ _ seen =>
          cases seen with
          | none => cases hs
          | some _ => exact h.canEnd_hearing hbelow
      | deciding => exact h.canEnd_deciding hbelow
      | selecting => exact h.canEnd_selecting hbelow
      | _ => cases hs

/-! ## Before that -/

/-- A worker takes a step on the way, if its operation is not over. -/
theorem Reached.canEnd_work (h : Reached plan op) (hs : op.stage ≠ .arriving)
    (hw : Work plan op r)
    (next : op.phase.isTerminal = false → Reached plan r.1 → CanEnd plan r.1) :
    CanEnd plan op := by
  refine .of_open fun ht => ?_
  exact h.work (isSeated_of_spawned (h.spawned hs ht)) hw (next ht)

/-- An answer that is there is delivered, and ends the operation. -/
theorem Reached.canEnd_answered {a : Except ApiError α} (h : Reached plan op)
    (hs : op.stage = .answered a) : CanEnd plan op := by
  have hactive : op.phase.isRunningOrOver = true := by
    have ho := h.workerInvariant.endingToCome
    rw [hs] at ho
    exact ho.2
  by_cases hp : op.phase = .running
  · refine h.canEnd_work (by rw [hs]; nofun) (.report hs hp) fun _ _ => .of_isTerminal plan ?_
    have ht : (answerEvent a).isTerminal = true := by cases a <;> rfl
    exact isTerminal_accept op ht
  · exact .of_isTerminal plan (Phase.isTerminal_of_isRunningOrOver hactive hp)

/-- A request that is out can be answered. -/
theorem Reached.canEnd_sending (h : Reached plan op) (hs : op.stage = .sending) :
    CanEnd plan op := by
  refine .of_open fun ht => ?_
  have hseat := h.spawned (by rw [hs]; nofun) ht
  have hstep : (op.step plan (.answer (.error default))).1.stage =
      .answered (.error default) := by
    simp [Operation.step, answer, hs, hseat, goto]
  exact h.canEnd_of_step (m := .answer (.error default)) (fun he => by cases he)
    (fun he => by cases he) rfl fun hnext => hnext.canEnd_answered hstep

/-- A stream that delivers, and to which no more messages can come, comes to its end. -/
theorem Reached.canEnd_of_delivers (h : Reached plan op) (hk : plan.kind = .stream)
    (ho : op.inboxOpen = false) (hs : delivers op.stage = true) : CanEnd plan op :=
  Delivering.canEnd ⟨h, hk, ho, rfl, Nat.le_refl _⟩ hs

/-- A registration can be refused, and that is something to tell. -/
theorem Reached.canEnd_registering (h : Reached plan op) (hk : plan.kind = .stream)
    (ho : op.inboxOpen = false) (hs : op.stage = .registering) : CanEnd plan op := by
  have hstep : (op.step plan (.registered (.error default))).1 =
      { op with
        listening := false, pending := op.pending ++ [.failed default], stage := .watching } := by
    simp [Operation.step, registered, hs]
  exact h.canEnd_of_step (m := .registered (.error default)) (fun he => by cases he)
    (fun he => by cases he) hstep fun hnext => hnext.canEnd_of_delivers hk ho rfl

theorem Reached.canEnd_confirming {id : String} (h : Reached plan op) (hk : plan.kind = .stream)
    (ho : op.inboxOpen = false) (hs : op.stage = .confirming id) : CanEnd plan op := by
  refine .of_open fun ht => ?_
  refine h.canEnd_work (by rw [hs]; nofun) (.establish hs ht) fun _ h => ?_
  exact h.canEnd_of_delivers hk ho rfl

/-- A worker that was admitted asks for what the call needs. -/
theorem Reached.canEnd_admitted (h : Reached plan op)
    (ho : plan.kind = .stream → op.inboxOpen = false) (hs : op.stage = .admitted) :
    CanEnd plan op := by
  have hne : op.stage ≠ .arriving := by rw [hs]; nofun
  cases hk : plan.kind with
  | single => exact h.canEnd_work hne (.send hs hk) fun _ h => h.canEnd_sending rfl
  | stream =>
      refine h.canEnd_work hne (.register hs hk) fun _ h => ?_
      exact h.canEnd_registering hk (ho hk) rfl

/-- A worker that looks whether it may go on may, once the operation is resumed. -/
theorem Reached.canEnd_checking {seen : Nat} (h : Reached plan op)
    (ho : plan.kind = .stream → op.inboxOpen = false) (hstarted : op.phase ≠ .created)
    (hs : op.stage = .checking seen) : CanEnd plan op := by
  refine .of_open fun ht => ?_
  refine h.unpause (by simp [isHearing, hs]) hstarted ht fun op' h hp hstage hm => ?_
  have hs : op'.stage = .checking seen := hstage.trans hs
  have henter : ∃ g, op'.gate.tryEnter = (g, some true) := by
    rcases hp with hp | hp <;> exact ⟨_, by rw [Gate.tryEnter, show op'.gate.phase = _ from hp]⟩
  obtain ⟨g, henter⟩ := henter
  refine h.canEnd_work (by rw [hs]; nofun) (.enter hs henter) fun _ h => ?_
  exact h.canEnd_admitted (fun hk => hm.inboxOpen.trans (ho hk)) rfl

/-- One that waits for the operation to be resumed looks again. -/
theorem Reached.canEnd_waiting {seen : Nat} (h : Reached plan op)
    (ho : plan.kind = .stream → op.inboxOpen = false) (hstarted : op.phase ≠ .created)
    (hs : op.stage = .waiting seen) : CanEnd plan op := by
  refine .of_open fun ht => ?_
  refine h.unpause (by simp [isHearing, hs]) hstarted ht fun op' h hp hstage hm => ?_
  have hs : op'.stage = .waiting seen := hstage.trans hs
  have hcreated : op'.phase ≠ .created := by rcases hp with hp | hp <;> rw [hp] <;> nofun
  have ht : op'.phase.isTerminal = false := by rcases hp with hp | hp <;> rw [hp] <;> rfl
  have hchanged : seen ≠ op'.gate.version := by
    have hknows := h.knowsChanges
    rw [hs] at hknows
    intro hv
    rcases hknows.2 hv with hc | ⟨back, hb⟩
    · exact hcreated hc
    · rcases hp with hp | hp <;> rw [hp] at hb <;> cases hb
  have hne : op'.stage ≠ .arriving := by rw [hs]; nofun
  have hseat : op'.controller.seat ≠ .aborting := by rw [h.spawned hne ht]; nofun
  refine h.canEnd_work hne (.lookAgain hs hseat hchanged) fun _ h => ?_
  exact h.canEnd_checking (fun hk => hm.inboxOpen.trans (ho hk)) hcreated rfl

/-- A start under way hands the worker over, and the worker sets out. -/
theorem Reached.canEnd_arriving (h : Reached plan op)
    (ho : plan.kind = .stream → op.inboxOpen = false) (hstarted : op.phase ≠ .created)
    (hs : op.stage = .arriving) : CanEnd plan op := by
  have hsetOut : ∀ op : Operation α, Reached plan op → op.stage = .arriving →
      op.controller.seat = .spawned → op.phase ≠ .created →
      (plan.kind = .stream → op.inboxOpen = false) → CanEnd plan op := by
    intro op h hs hseat hstarted ho
    have hne : op.controller.seat ≠ .aborting := by rw [hseat]; nofun
    refine h.work (isSeated_of_spawned hseat) (.look hs hne) fun h => ?_
    exact h.canEnd_checking ho hstarted rfl
  refine .of_open fun ht => ?_
  rcases h.workerInvariant.hasWorker hstarted ht with ⟨hseat, -⟩ | ⟨hseat, hspawn⟩
  · exact hsetOut op h hs hseat hstarted ho
  · obtain ⟨i, hi⟩ := List.getElem?_of_mem hspawn
    have hstep : (op.step plan (.pursue i)).1 =
        { op with controller := (op.controller.advance i).1 } := by
      have hwaits : op.waitsForGate op.controller.pursuits[i]? = false := by
        simp [waitsForGate, isHearing, hs]
      rw [Operation.step, hwaits]
      simp [Controller.advance, hi, Controller.pursue, hseat, follow]
    have hadvance : (op.controller.advance i).1.seat = .spawned ∧
        (op.controller.advance i).1.gate = op.controller.gate := by
      simp [Controller.advance, hi, Controller.pursue, hseat]
    refine h.canEnd_of_step (m := .pursue i) (fun he => by cases he) (fun he => by cases he)
      hstep fun hnext => hsetOut _ hnext hs hadvance.1 ?_ ho
    exact (congrArg (fun g : Gate Unit Unit => g.phase ≠ .created) hadvance.2).mpr hstarted

/-- If no more messages can come to it, every operation that is started comes to its end. -/
theorem Reached.canEnd_of_inboxOpen (h : Reached plan op)
    (ho : plan.kind = .stream → op.inboxOpen = false) (hstarted : op.phase ≠ .created) :
    CanEnd plan op := by
  have hcome := h.workerInvariant.endingToCome
  cases hs : op.stage with
  | arriving => exact h.canEnd_arriving ho hstarted hs
  | checking => exact h.canEnd_checking ho hstarted hs
  | waiting => exact h.canEnd_waiting ho hstarted hs
  | admitted => exact h.canEnd_admitted ho hs
  | sending => exact h.canEnd_sending hs
  | answered => exact h.canEnd_answered hs
  | registering =>
      rw [hs] at hcome
      exact h.canEnd_registering hcome.1 (ho hcome.1) hs
  | storing id =>
      rw [hs] at hcome
      refine h.canEnd_work (by rw [hs]; nofun) (.store hs) fun _ h => ?_
      exact h.canEnd_confirming hcome.1 (ho hcome.1) rfl
  | confirming =>
      rw [hs] at hcome
      exact h.canEnd_confirming hcome.1 (ho hcome.1) hs
  | hearing _ _ seen =>
      cases seen with
      | none =>
          rw [hs] at hcome
          exact .of_isTerminal plan hcome
      | some _ =>
          rw [hs] at hcome
          exact h.canEnd_of_delivers hcome.1 (ho hcome.1) (by rw [hs]; rfl)
  | watching | flushing | deciding | selecting =>
      rw [hs] at hcome
      exact h.canEnd_of_delivers hcome.1 (ho hcome.1) (by rw [hs]; rfl)
  | closing | unregistering | finished =>
      rw [hs] at hcome
      exact .of_isTerminal plan hcome

/-- Every operation that is started can come to its end.  A stream can be told that there are
no more messages. -/
theorem Reached.canEnd (h : Reached plan op) (hstarted : op.phase ≠ .created) :
    CanEnd plan op := by
  by_cases ho : plan.kind = .stream → op.inboxOpen = false
  · exact h.canEnd_of_inboxOpen ho hstarted
  · obtain ⟨hk, -⟩ := Classical.not_imp.1 ho
    have hlast := h.step (.message .complete) nofun
    have hclosed := hlast.step .hangUp fun _ _ =>
      (h.workerInvariant.endingToCome.hasEndingToCome hk).hangUp rfl
    refine .of_step (m := .message .complete) nofun (.of_step (m := .hangUp) nofun ?_)
    refine hclosed.canEnd_of_inboxOpen (fun _ => rfl) ?_
    have hphase : (op.message .complete).phase = op.phase := by
      unfold message
      split <;> rfl
    exact fun hp => hstarted (hphase.symm.trans hp)

end Operation
end Switchboard
