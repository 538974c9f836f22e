import Switchboard.Proofs.Operation.Silence

/-!
# Switchboard.Proofs.Operation.NetworkStep

How often an operation turns to the network.  Its worker is handed over once; it is admitted
once, as the operation moves from started to running; and once admitted it asks for the
network once.  The gate is let go in between, so the operation may be cancelled by then, and a
stream may be paused.

* `spawns` — how often a run hands the worker over;
* `request`, `requests` — what a worker asks for, and what is asked in a run;
* `begins`, `admissions` — how often an operation moves from started to running;
* `Advance` — how these go together, for one step and for many;
* `Admissible` — the phases in which a worker that was admitted can find its operation;
* `asks_once` — all of it, for every run;
* `asks_while_paused` — a stream that asks while it is paused.
-/

namespace Switchboard

variable {α : Type}

/-! ## Handing the worker over -/

/-- How often one step hands the worker over. -/
def Seat.spawns (s s' : Seat) : Nat := if s = .held ∧ s'.isTaken = true then 1 else 0

/-- A worker that is handed over is out of its seat for good. -/
theorem Seat.Leads.spawns_add {s s' : Seat} (h : s.Leads s') :
    s.spawns s' + s.isTaken.toNat = s'.isTaken.toNat := by
  cases h with
  | stay => cases s <;> rfl
  | spawn | abort | release => rfl

namespace Operation

variable {plan : Plan α} {op : Operation α}

/-- How often moves in a row hand the worker over. -/
def spawns (plan : Plan α) : List (Move α) → Operation α → Nat
  | [], _ => 0
  | m :: rest, op =>
    op.controller.seat.spawns (op.step plan m).1.controller.seat +
      spawns plan rest (op.step plan m).1

/-- Over a run the worker is handed over once, if it is at all. -/
theorem spawns_add (plan : Plan α) (moves : List (Move α)) (op : Operation α) :
    spawns plan moves op + op.isSeated.toNat = (run plan moves op).1.isSeated.toNat := by
  induction moves generalizing op with
  | nil => exact Nat.zero_add _
  | cons m rest ih =>
      have hstep := (step_successor plan op m).seat.spawns_add
      have hrest := ih (op.step plan m).1
      simp only [isSeated] at hrest ⊢
      simp only [spawns, run]
      omega

/-- A worker that is out of its seat was handed over once. -/
theorem spawns_create (plan : Plan α) (moves : List (Move α)) :
    spawns plan moves (create plan) =
      if (run plan moves (create plan)).1.isSeated then 1 else 0 := by
  have hspawns := spawns_add plan moves (create plan)
  have hheld : (create plan).isSeated = false := by
    unfold create isSeated
    split <;> rfl
  rw [hheld] at hspawns
  cases hs : (run plan moves (create plan)).1.isSeated with
  | true => exact hspawns.trans (congrArg Bool.toNat hs)
  | false => exact hspawns.trans (congrArg Bool.toNat hs)

end Operation

/-! ## What is counted -/

/-- What a worker asks for when it was admitted. -/
def Plan.request (plan : Plan α) : Demand :=
  match plan.kind with
  | .single => .send
  | .stream => .register

/-- Whether a demand is what a worker asks for when it was admitted. -/
def Demand.isRequest : Demand → Bool
  | send | register => true
  | _ => false

/-- The requests among demands. -/
def requests (demands : List Demand) : List Demand := demands.filter Demand.isRequest

theorem requests_append (ds es : List Demand) : requests (ds ++ es) = requests ds ++ requests es :=
  List.filter_append ..

/-- How often an operation moves from started to running, as its phase goes from one to another. -/
def Phase.begins (p q : Phase) : Nat := if p = .started ∧ q = .running then 1 else 0

/-- What stays does not begin. -/
theorem Phase.begins_of_eq {p q : Phase} (h : q = p) : p.begins q = 0 := by
  subst h
  exact if_neg (by rintro ⟨rfl, hq⟩; cases hq)

/-- No control call lets an operation begin to run. -/
theorem Phase.Turn.begins {kind : Kind} {c : Control} {p q : Phase} (h : Turn kind c p q) :
    p.begins q = 0 :=
  if_neg (by rintro ⟨rfl, rfl⟩; cases h)

/-- What runs already does not begin. -/
theorem Phase.begins_of_running {p : Phase} (h : p = .running) (q : Phase) : p.begins q = 0 :=
  if_neg fun hb => by rw [h] at hb; cases hb.1

/-- A control call takes nothing to where it runs, or is paused while it runs. -/
theorem Phase.Turn.rank_ne {kind : Kind} {c : Control} {p q : Phase} (h : Turn kind c p q)
    (hp : p.rank ≠ Phase.running.rank) : q.rank ≠ Phase.running.rank := by
  cases h with
  | start | hold | cancel => decide
  | pause => exact absurd rfl hp
  | resume back =>
      cases back with
      | started => decide
      | running => exact absurd rfl hp

/-- How far a worker has come on its way to the network. -/
inductive Access where
  /-- It has still to learn that it may go on. -/
  | outside
  /-- It has learnt that, and is about to ask. -/
  | admitted
  /-- It has asked, or will never ask. -/
  | through
  deriving DecidableEq, Repr

def Stage.access : Stage α → Access
  | arriving | checking _ | waiting _ => .outside
  | admitted => .admitted
  | _ => .through

/-- What steps come to: how far they take a worker, how often they let the operation begin to
run, and what is asked meanwhile. -/
inductive Advance (plan : Plan α) : Access → Access → Nat → List Demand → Prop where
  | stay (a : Access) : Advance plan a a 0 []
  /-- The operation is over, and nothing will be asked. -/
  | dismiss : Advance plan .outside .through 0 []
  | enter : Advance plan .outside .admitted 1 []
  | ask : Advance plan .admitted .through 0 [plan.request]
  | both : Advance plan .outside .through 1 [plan.request]

/-- Most steps take a worker no further. -/
theorem Advance.of_eq {plan : Plan α} {a b : Access} {n : Nat} {ds : List Demand} (hs : b = a)
    (hn : n = 0) (hd : ds = []) : Advance plan a b n ds := by
  subst hs hn hd
  exact .stay b

/-- Steps from outside let the operation begin once at most, and ask once at most after that. -/
theorem Advance.of_outside {plan : Plan α} {b : Access} {n : Nat} {ds : List Demand}
    (h : Advance plan .outside b n ds) :
    n = 0 ∧ ds = [] ∨ n = 1 ∧ (ds = [] ∨ ds = [plan.request]) := by
  cases h with
  | stay | dismiss => exact .inl ⟨rfl, rfl⟩
  | enter => exact .inr ⟨rfl, .inl rfl⟩
  | both => exact .inr ⟨rfl, .inr rfl⟩

/-- A worker that was admitted and has not asked lets the operation begin, and that is all. -/
theorem Advance.to_admitted {plan : Plan α} {n : Nat} {ds : List Demand}
    (h : Advance plan .outside .admitted n ds) : n = 1 ∧ ds = [] := by
  cases h
  exact ⟨rfl, rfl⟩

/-- A worker that has asked does not ask again. -/
theorem Advance.trans {plan : Plan α} {a b c : Access} {m n : Nat} {ds es : List Demand}
    (h : Advance plan a b m ds) (h' : Advance plan b c n es) :
    Advance plan a c (m + n) (ds ++ es) := by
  cases h with
  | stay => rw [Nat.zero_add]; exact h'
  | dismiss | ask | both => cases h'; constructor
  | enter =>
      cases h' with
      | stay => exact .enter
      | ask => exact .both

namespace Operation

variable {plan : Plan α} {op : Operation α}

/-- How often an operation moves from started to running in the course of some moves. -/
def admissions (plan : Plan α) : List (Move α) → Operation α → Nat
  | [], _ => 0
  | m :: rest, op =>
    op.phase.begins (op.step plan m).1.phase + admissions plan rest (op.step plan m).1

theorem requests_follow (op : Operation α) (c : Controller) (hook : Bool) :
    requests (op.follow c hook).2 = [] := by
  cases hook with
  | false => rfl
  | true =>
      simp only [follow, runHook]
      cases op.slot <;> rfl

/-! ## Outside -/

/-- As long as its worker is outside, an operation does not run, and is not paused while it
runs. -/
def WaitsToRun (op : Operation α) : Prop :=
  op.stage.access = .outside → op.phase.rank ≠ Phase.running.rank

theorem WaitsToRun.of_inside {s : Stage α} (hs : op.stage = s) (h : s.access ≠ .outside) :
    WaitsToRun op := fun ho => absurd (hs ▸ ho) h

theorem Work.waitsToRun {r : Operation α × List Demand} (h : Work plan op r)
    (hw : WaitsToRun op) : WaitsToRun r.1 := by
  cases h with
  | look hs | lookAgain hs | wait hs => exact fun _ => hw (by rw [hs]; rfl)
  | @pursue p todo seen _ =>
      obtain ⟨c, slot, next, -, hr⟩ := op.hear_some todo seen p
      rw [hr]
      exact .of_inside rfl nofun
  | call => rw [hear_call]; exact .of_inside rfl nofun
  | @heard seen _ => cases seen <;> exact .of_inside rfl nofun
  | _ => exact .of_inside rfl nofun

theorem waitsToRun_step (plan : Plan α) (op : Operation α) (m : Move α) (hw : WaitsToRun op) :
    WaitsToRun (op.step plan m).1 := by
  have h := step_cases plan op m
  generalize op.step plan m = r at h ⊢
  cases h with
  | turn _ ht => exact fun ho => ht.rank_ne (hw ho)
  | @pursue _ p _ =>
      rw [follow_fst]
      intro ho hp
      exact hw ho ((congrArg Phase.rank (op.controller.pursue_keepsPhase p).phase_eq).symm.trans hp)
  | work _ hwork => exact hwork.waitsToRun hw
  | answer | grant | fail | removed => exact .of_inside rfl nofun
  | nothing | message | hangUp => exact hw

theorem waitsToRun_create (plan : Plan α) : WaitsToRun (create plan) := by
  intro _
  rw [phase_create]
  decide

/-! ## Counting -/

theorem Work.advance {r : Operation α × List Demand} (h : Work plan op r) (hw : WaitsToRun op) :
    Advance plan op.stage.access r.1.stage.access (op.phase.begins r.1.phase) (requests r.2) := by
  cases h with
  | enter hs ht =>
      rw [hs]
      rcases op.gate.tryEnter_true ht with ⟨hp, rfl⟩ | ⟨hp, -⟩
      · have hbegins : op.phase.begins .running = 1 := if_pos ⟨hp, rfl⟩
        exact hbegins ▸ .enter
      · -- a worker that is still outside does not find the operation running
        exact absurd (congrArg Phase.rank hp) (hw (by rw [hs]; rfl))
  | send hs hk | register hs hk =>
      have hask : Advance plan .admitted .through 0 [plan.request] := .ask
      rw [Plan.request, hk] at hask
      have hbegins : op.phase.begins op.phase = 0 := Phase.begins_of_eq rfl
      rw [hs]
      exact hbegins ▸ hask
  | look hs | lookAgain hs | wait hs =>
      exact .of_eq (by rw [hs]; rfl) (Phase.begins_of_eq rfl) rfl
  | refuse hs =>
      have hbegins : op.phase.begins op.phase = 0 := Phase.begins_of_eq rfl
      rw [hs]
      exact hbegins ▸ .dismiss
  | stop hs =>
      have hbegins : op.phase.begins op.phase = 0 := Phase.begins_of_eq rfl
      cases hst : op.stage with
      | arriving | waiting => exact hbegins ▸ .dismiss
      | sending => exact .of_eq rfl hbegins rfl
      | _ => rw [hst] at hs; cases hs
  | report hs hp | deliver hs _ hp =>
      exact .of_eq (by rw [hs]; rfl) (Phase.begins_of_running hp _) rfl
  | @pursue p todo seen hs =>
      refine .of_eq ?_ ?_ (requests_follow ..)
      · rw [hear, follow_fst, hs]; rfl
      · obtain ⟨c, slot, next, hc, hr⟩ := op.hear_some todo seen p
        rw [hr]
        exact Phase.begins_of_eq hc.phase_eq
  | @call control rest seen hs =>
      refine .of_eq (by rw [hear_call, hs]; rfl) ?_ rfl
      rw [hear_call]
      rcases op.controller.enact_cases control with hc | ⟨q, hq, hc⟩
      · rw [hc]; exact Phase.begins_of_eq rfl
      · rw [hc]; exact hq.begins
  | @heard seen hs =>
      refine .of_eq ?_ (Phase.begins_of_eq rfl) rfl
      rw [hs]
      cases seen <;> rfl
  | drop hs | store hs | giveUp hs | establish hs | watch hs | settle hs | shut hs | leave hs
  | await hs | take hs | turnAway hs | flushAgain hs | close hs | finish hs =>
      exact .of_eq (by rw [hs]; rfl) (Phase.begins_of_eq rfl) rfl

theorem step_advance (plan : Plan α) (hw : WaitsToRun op) (m : Move α) :
    Advance plan op.stage.access (op.step plan m).1.stage.access
      (op.phase.begins (op.step plan m).1.phase) (requests (op.step plan m).2) := by
  have h := step_cases plan op m
  generalize op.step plan m = r at h ⊢
  cases h with
  | work _ hwork => exact hwork.advance hw
  | turn _ ht => exact .of_eq rfl ht.begins rfl
  | @pursue _ p _ =>
      refine .of_eq (by rw [follow_fst]) ?_ (requests_follow ..)
      rw [follow_fst]
      exact Phase.begins_of_eq (op.controller.pursue_keepsPhase p).phase_eq
  | answer hs | grant hs | fail hs | removed hs =>
      exact .of_eq (by rw [hs]; rfl) (Phase.begins_of_eq rfl) rfl
  | nothing | message | hangUp => exact .of_eq rfl (Phase.begins_of_eq rfl) rfl

theorem advance_run (plan : Plan α) (moves : List (Move α)) (hw : WaitsToRun op) :
    Advance plan op.stage.access (run plan moves op).1.stage.access
      (admissions plan moves op) (requests (run plan moves op).2) := by
  induction moves generalizing op with
  | nil => exact .stay _
  | cons m rest ih =>
      have hrest := ih (waitsToRun_step plan op m hw)
      simp only [run, admissions, requests_append]
      exact (step_advance plan hw m).trans hrest

/-- Only a worker that was admitted asks. -/
theorem admitted_of_requests (plan : Plan α) {m : Move α} (hr : requests (op.step plan m).2 ≠ []) :
    op.stage = .admitted := by
  have h := step_cases plan op m
  generalize op.step plan m = r at h hr
  cases h with
  | work _ hwork =>
      cases hwork with
      | send hs | register hs => exact hs
      | pursue => exact absurd (requests_follow ..) hr
      | _ => exact absurd rfl hr
  | pursue => exact absurd (requests_follow ..) hr
  | _ => exact absurd rfl hr

/-! ## After the admission -/

/-- The phases in which a worker that was admitted can find its operation before it asks. -/
def Admissible (kind : Kind) (p : Phase) : Prop :=
  p = .running ∨ p = .cancelled ∨ kind = .stream ∧ p = .paused .running

/-- A control call does not set an operation back to before the admission. -/
theorem Admissible.turn {kind : Kind} {c : Control} {p q : Phase} (ha : Admissible kind p)
    (h : Phase.Turn kind c p q) : Admissible kind q := by
  cases h with
  | start | hold => rcases ha with ha | ha | ⟨-, ha⟩ <;> cases ha
  | pause hs => exact .inr (.inr ⟨hs, rfl⟩)
  | cancel => exact .inr (.inl rfl)
  | resume back =>
      rcases ha with ha | ha | ⟨-, ha⟩ <;> cases ha
      exact .inl rfl

/-- What is known of an operation whose worker was admitted and has not asked. -/
structure Enters (plan : Plan α) (op : Operation α) : Prop where
  kind : op.gate.kind = plan.kind
  phase : op.stage = .admitted → Admissible plan.kind op.phase

theorem enters_step (plan : Plan α) (op : Operation α) (m : Move α) (he : Enters plan op) :
    Enters plan (op.step plan m).1 := by
  refine ⟨(step_successor plan op m).kind_eq.trans he.kind, ?_⟩
  have h := step_cases plan op m
  generalize op.step plan m = r at h ⊢
  cases h with
  | turn _ ht => rw [he.kind] at ht; exact fun hs => (he.phase hs).turn ht
  | @pursue _ p _ =>
      rw [follow_fst]
      intro hs
      have hp := (op.controller.pursue_keepsPhase p).phase_eq
      exact (congrArg (Admissible plan.kind) hp).mpr (he.phase hs)
  | work _ hwork =>
      cases hwork with
      | enter _ ht =>
          intro _
          rcases op.gate.tryEnter_true ht with ⟨-, rfl⟩ | ⟨hp, rfl⟩
          · exact .inl rfl
          · exact .inl hp
      | pursue => rw [hear, follow_fst]; nofun
      | @heard seen _ => cases seen <;> nofun
      | _ => nofun
  | answer | grant | fail | removed => nofun
  | nothing | message | hangUp => exact he.phase

theorem enters_run (plan : Plan α) (moves : List (Move α)) :
    Enters plan (run plan moves (create plan)).1 := by
  refine run_invariant (enters_step plan) moves ⟨?_, nofun⟩
  unfold create gate
  split <;> rfl

/-- No worker is admitted once its operation is over. -/
theorem access_step_ne_admitted (plan : Plan α) (m : Move α) (hs : op.stage.access ≠ .admitted)
    (ht : op.phase.isTerminal = true) : (op.step plan m).1.stage.access ≠ .admitted := by
  have h := step_cases plan op m
  generalize op.step plan m = r at h ⊢
  cases h with
  | work _ hwork =>
      cases hwork with
      | enter _ henter =>
          have hp : op.phase = .started ∨ op.phase = .running :=
            (op.gate.tryEnter_true henter).imp And.left And.left
          rcases hp with hp | hp <;> rw [hp] at ht <;> cases ht
      | pursue => rw [hear, follow_fst]; nofun
      | @heard seen _ => cases seen <;> nofun
      | _ => nofun
  | pursue => rw [follow_fst]; exact hs
  | answer | grant | fail | removed => nofun
  | nothing | turn | message | hangUp => exact hs

/-- Once an operation is over and its worker was not admitted, nothing is asked any more. -/
theorem requests_of_isTerminal (plan : Plan α) (moves : List (Move α))
    (hs : op.stage.access ≠ .admitted) (ht : op.phase.isTerminal = true) :
    requests (run plan moves op).2 = [] := by
  induction moves generalizing op with
  | nil => rfl
  | cons m rest ih =>
      have hfirst : requests (op.step plan m).2 = [] := by
        refine Decidable.not_not.1 fun hne => hs ?_
        rw [admitted_of_requests plan hne]
        rfl
      have hover := ((step_effect plan op m).of_isTerminal ht).1
      have hrest := ih (access_step_ne_admitted plan m hs ht) (by rw [hover]; exact ht)
      simp only [run]
      rw [requests_append, hfirst, hrest]
      rfl

/-- And nothing is after a call to cancel that is valid before the worker is admitted. -/
theorem requests_of_cancel (plan : Plan α) (moves : List (Move α))
    (hs : op.stage.access ≠ .admitted) (hl : op.isHearing = false)
    (hv : (op.controller.call .cancel).2 = true) :
    requests (run plan moves (op.step plan (.control .cancel)).1).2 = [] := by
  have hstage : (op.step plan (.control .cancel)).1.stage = op.stage := by
    simp only [step]
    split <;> rfl
  have hp : (op.step plan (.control .cancel)).1.phase = .cancelled := phase_cancel plan hl hv
  exact requests_of_isTerminal plan moves (by rw [hstage]; exact hs) (by rw [hp]; rfl)

/-! ## Once -/

/-- An operation turns to the network once.  Its worker is handed over once at most; it moves
from started to running once at most, and asks for the network once at most, after that.  It
asks with the operation running, unless that was cancelled after the move, or is a stream that
was paused after it: so never while it is paused before the move, nor, with one response, while
it is paused at all.  And when the operation is over before the move, or a call to cancel is
valid before it, nothing is ever asked. -/
theorem asks_once (plan : Plan α) (moves : List (Move α)) :
    let r := run plan moves (create plan)
    let admitted := admissions plan moves (create plan)
    (spawns plan moves (create plan) = if r.1.isSeated then 1 else 0) ∧
    (admitted = 0 ∧ requests r.2 = [] ∨
      admitted = 1 ∧ (requests r.2 = [] ∨ requests r.2 = [plan.request])) ∧
    (∀ m, requests (r.1.step plan m).2 ≠ [] → admitted = 1 ∧ requests r.2 = [] ∧
      (r.1.phase = .running ∨ r.1.phase = .cancelled ∨
        plan.kind = .stream ∧ r.1.phase = .paused .running)) ∧
    (admitted = 0 → r.1.phase.isTerminal = true → ∀ more, requests (run plan more r.1).2 = []) ∧
    (admitted = 0 → r.1.isHearing = false → (r.1.controller.call .cancel).2 = true →
      ∀ more, requests (run plan more (r.1.step plan (.control .cancel)).1).2 = []) := by
  intro r admitted
  have hadvance : Advance plan .outside r.1.stage.access admitted (requests r.2) :=
    advance_run plan moves (waitsToRun_create plan)
  have hinside : admitted = 0 → r.1.stage.access ≠ .admitted := by
    intro hn hs
    rw [hs, hn] at hadvance
    cases hadvance
  refine ⟨spawns_create plan moves, hadvance.of_outside, fun m hm => ?_,
    fun hn ht more => requests_of_isTerminal plan more (hinside hn) ht,
    fun hn hl hv more => requests_of_cancel plan more (hinside hn) hl hv⟩
  have hs := admitted_of_requests plan hm
  rw [show r.1.stage.access = .admitted from congrArg Stage.access hs] at hadvance
  obtain ⟨hbegun, hunasked⟩ := hadvance.to_admitted
  exact ⟨hbegun, hunasked, (enters_run plan moves).phase hs⟩

/-- A stream that is paused after it was admitted asks all the same. -/
theorem asks_while_paused :
    let plan : Plan Nat := { kind := .stream, decode := fun _ => .ok 0 }
    let op := (run plan
      ([.control .start, .pursue 0, .work true, .work true, .control .pause] : List (Move Nat))
      (create plan)).1
    op.phase = .paused .running ∧ (op.step plan (.work true)).2 = [.register] ∧
      (op.step plan (.work true)).1.phase = .paused .running := by
  decide

end Operation
end Switchboard
