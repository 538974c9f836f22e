import Switchboard.Proofs.Operation.ControlStep

/-!
# Switchboard.Proofs.Operation.Abort

What becomes of the task and of the hook of an operation when a start and a cancellation
meet.  The start keeps the task and then looks at the phase; the cancellation changes the
phase and then looks for the task.  Other steps may come in between, and no lock spans two of
them.  But each side writes before it reads, so whoever comes last finds what the other has
written; and who takes the task out of its slot leaves none behind for the other.

* `Controller.TaskInvariant` — where the task is at any time, and who comes for it;
* `Controller.CancelCount` — how often a controller is cancelled and runs its hook;
* `Controller.HookPending` — who comes for the hook;
* `ControllerStep.taskInvariant`, `ControllerStep.cancelCount`, `ControllerStep.hookPending` —
  what one move keeps of all this;
* `aborts_once` — what is left of it at the end, whatever came in between.
-/

namespace Switchboard

variable {α : Type}

/-! ## The task -/

namespace Pursuit

/-- Whether a step of a call looks for the task, or leads to one that does. -/
def seeksTask : Pursuit → Bool
  | recheck | retract | abort => true
  | spawn | keep | hook | release => false

/-- Whether a step of a call has something to do with the task. -/
def handlesTask (p : Pursuit) : Bool := p == .keep || p.seeksTask

/-- Whether a step of a call leads to the hook. -/
def leadsToHook : Pursuit → Bool
  | abort | hook => true
  | spawn | keep | recheck | retract | release => false

end Pursuit

namespace Controller

/-- Where the task of an operation with one response is. -/
structure TaskInvariant (c : Controller) : Prop where
  kind : c.gate.kind = .single
  /-- A worker that runs has been told to stop, is in its slot, or is about to be kept; and
  only one of these, and only once. -/
  balance : c.aborts + c.gate.task.isSome.toNat + c.pursuits.count .keep = c.seat.isTaken.toNat
  aborts_eq : c.aborts = if c.seat = .aborting then 1 else 0
  /-- When the operation is cancelled, someone comes for the task in the slot. -/
  sought : c.gate.phase = .cancelled → c.gate.task.isSome = true →
    ∃ p ∈ c.pursuits, p.seeksTask = true

variable {c : Controller}

theorem TaskInvariant.call (h : c.TaskInvariant) (control : Control) :
    (c.call control).1.TaskInvariant := by
  rcases c.call_cases control with hc | ⟨q, hq, hc⟩
  · rw [hc]; exact h
  · rw [hc]
    refine ⟨h.kind, ?_, h.aborts_eq, fun hp _ => ?_⟩
    · have hkeep : control.next?.toList.count .keep = 0 := by cases control <;> rfl
      simp only [List.count_append, hkeep]
      exact h.balance
    · rw [next?_of_cancelled hq hp]
      exact ⟨.abort, List.mem_append_right _ List.mem_cons_self, rfl⟩

/-- What is under way besides a step is still under way after it. -/
theorem exists_of_split {P : Pursuit → Bool} {before after : List Pursuit} {p : Pursuit}
    (h : ∃ x ∈ before ++ p :: after, P x = true) (hp : P p = false) (next : List Pursuit) :
    ∃ x ∈ before ++ next ++ after, P x = true := by
  obtain ⟨x, hx, hP⟩ := h
  refine ⟨x, ?_, hP⟩
  simp only [List.mem_append, List.mem_cons] at hx ⊢
  rcases hx with hx | rfl | hx
  · exact .inl (.inl hx)
  · rw [hp] at hP; cases hP
  · exact .inr hx

variable {before after : List Pursuit} {p : Pursuit}

theorem TaskInvariant.balance_split (h : c.TaskInvariant)
    (hsplit : c.pursuits = before ++ p :: after) :
    c.aborts + c.gate.task.isSome.toNat +
      (before.count .keep + [p].count .keep + after.count .keep) = c.seat.isTaken.toNat := by
  have hbalance := h.balance
  rw [hsplit, List.count_append, ← List.singleton_append, List.count_append] at hbalance
  omega

theorem TaskInvariant.sought_split (h : c.TaskInvariant)
    (hsplit : c.pursuits = before ++ p :: after)
    (hp : p.seeksTask = false) (next : List Pursuit) (hphase : c.gate.phase = .cancelled)
    (htask : c.gate.task.isSome = true) :
    ∃ x ∈ before ++ next ++ after, x.seeksTask = true := by
  have hsought := h.sought hphase htask
  rw [hsplit] at hsought
  exact exists_of_split hsought hp next

/-- A step that has nothing to do with the task; if it was to look for it, another will. -/
theorem TaskInvariant.replace (h : c.TaskInvariant) (hsplit : c.pursuits = before ++ p :: after)
    (next : List Pursuit) (hkeep : next.count .keep = [p].count .keep)
    (hseek : p.seeksTask = true → c.gate.phase = .cancelled → ∃ x ∈ next, x.seeksTask = true)
    {seat : Seat} (hseat : seat = c.seat ∨ c.seat = .held ∧ seat = .released)
    (hook : Option Unit) :
    TaskInvariant
      { c with gate := { c.gate with hook }, seat, pursuits := before ++ next ++ after } := by
  have hbalance := h.balance_split hsplit
  refine ⟨h.kind, ?_, ?_, fun hp ht => ?_⟩
  · have htaken : seat.isTaken = c.seat.isTaken := by
      rcases hseat with rfl | ⟨hs, rfl⟩
      · rfl
      · rw [hs]; rfl
    simp only [List.count_append, hkeep, htaken]
    exact hbalance
  · have haborts := h.aborts_eq
    rcases hseat with rfl | ⟨hs, rfl⟩
    · exact haborts
    · rw [hs] at haborts; exact haborts
  · cases hs : p.seeksTask with
    | false => exact h.sought_split hsplit hs next hp ht
    | true =>
        obtain ⟨x, hx, hseeks⟩ := hseek hs hp
        exact ⟨x, List.mem_append_left _ (List.mem_append_right _ hx), hseeks⟩

/-- A worker that is handed over is about to be kept. -/
theorem TaskInvariant.spawn (h : c.TaskInvariant) (hsplit : c.pursuits = before ++ .spawn :: after)
    (hseat : c.seat = .held) :
    TaskInvariant { c with seat := .spawned, pursuits := before ++ [.keep] ++ after } := by
  have hbalance := h.balance_split hsplit
  have haborts := h.aborts_eq
  rw [hseat] at hbalance haborts
  refine ⟨h.kind, ?_, haborts, h.sought_split hsplit rfl _⟩
  simp only [List.count_append]
  change _ + (_ + 0 + _) = 0 at hbalance
  change _ + (_ + 1 + _) = 1
  omega

/-- What is kept has not been kept before, and the start looks whether it came too late. -/
theorem TaskInvariant.keep (h : c.TaskInvariant) (hsplit : c.pursuits = before ++ .keep :: after) :
    TaskInvariant
      { c with
        gate := { c.gate with task := some () }, pursuits := before ++ [.recheck] ++ after } := by
  have hbalance := h.balance_split hsplit
  have hle : c.seat.isTaken.toNat ≤ 1 := Bool.toNat_le _
  refine ⟨h.kind, ?_, h.aborts_eq, fun _ _ => ⟨.recheck, by simp, rfl⟩⟩
  simp only [List.count_append]
  change _ + (_ + 1 + _) = _ at hbalance
  change _ + 1 + (_ + 0 + _) = _
  omega

/-- A task in its slot runs, and was not told to stop. -/
theorem TaskInvariant.spawned (h : c.TaskInvariant) (htask : c.gate.task = some ()) :
    c.seat = .spawned := by
  have hbalance := h.balance
  have haborts := h.aborts_eq
  rw [htask] at hbalance
  cases hs : c.seat with
  | spawned => rfl
  | aborting =>
      -- the one task would be told to stop and be in its slot at once
      rw [hs] at hbalance haborts
      change _ + 1 + _ = 1 at hbalance
      change _ = 1 at haborts
      omega
  | held | released =>
      rw [hs] at hbalance
      change _ + 1 + _ = 0 at hbalance
      omega

/-- Whoever takes the task out of its slot tells it to stop, if there is one. -/
theorem TaskInvariant.takeTask (h : c.TaskInvariant) (hsplit : c.pursuits = before ++ p :: after)
    (next : List Pursuit) (hkeep : next.count .keep = [p].count .keep) :
    TaskInvariant
      { { c with gate := c.gate.takeTask.1 }.abort c.gate.takeTask.2 with
        pursuits := before ++ next ++ after } := by
  have hbalance := h.balance_split hsplit
  have htake : c.gate.takeTask = ({ c.gate with task := none }, c.gate.task) := if_pos h.kind
  rw [htake]
  cases htask : c.gate.task with
  | none =>
      rw [htask] at hbalance
      refine ⟨h.kind, ?_, h.aborts_eq, fun _ hs => by cases hs⟩
      simp only [List.count_append, hkeep, Controller.abort]
      exact hbalance
  | some _ =>
      have hseat := h.spawned htask
      have haborts := h.aborts_eq
      rw [htask, hseat] at hbalance
      rw [hseat] at haborts
      refine ⟨h.kind, ?_, ?_, fun _ hs => by cases hs⟩
      · simp only [List.count_append, hkeep, Controller.abort, hseat]
        change _ + 1 + _ = 1 at hbalance
        change _ + 1 + 0 + _ = 1
        omega
      · simp only [Controller.abort, hseat, haborts]
        rfl

theorem TaskInvariant.advance (h : c.TaskInvariant) (i : Nat) : (c.advance i).1.TaskInvariant := by
  rcases c.advance_cases i with ha | ⟨before, p, after, hsplit, ha⟩
  · rw [ha]; exact h
  · rw [ha]
    cases p with
    | spawn =>
        simp only [pursue]
        split
        · next hs => exact h.spawn hsplit hs
        · exact h.replace hsplit [] rfl (fun hs => by cases hs) (.inl rfl) c.gate.hook
    | keep =>
        simp only [pursue, Gate.storeTask, if_pos h.kind]
        exact h.keep hsplit
    | recheck =>
        refine h.replace hsplit _ ?_ (fun _ hp => ?_) (.inl rfl) c.gate.hook
        · simp only [pursue]; split <;> rfl
        · simp only [pursue, if_pos hp]
          exact ⟨.retract, List.mem_cons_self, rfl⟩
    | retract => exact h.takeTask hsplit [] rfl
    | abort => exact h.takeTask hsplit [.hook] rfl
    | hook => exact h.replace hsplit [.release] rfl (fun hs => by cases hs) (.inl rfl) none
    | release =>
        refine h.replace hsplit [] rfl (fun hs => by cases hs) ?_ c.gate.hook
        by_cases hs : c.seat = .held
        · exact .inr ⟨hs, if_pos hs⟩
        · exact .inl (if_neg hs)

/-- Whatever is done, the task stays accounted for. -/
theorem ControllerStep.taskInvariant {c' : Controller} {d : Option ControlStep}
    (hs : c.ControllerStep d c')
    (h : c.TaskInvariant) : c'.TaskInvariant := by
  cases hs with
  | keep => exact h
  | pass hbefore hafter => exact ⟨h.kind, h.balance, h.aborts_eq, fun hp => absurd hp hafter⟩
  | call control => exact h.call control
  | advance i => exact h.advance i

/-- A worker that runs in a cancelled operation has been told to stop, once no call has
anything to do with it any more. -/
theorem TaskInvariant.aborted (h : c.TaskInvariant) (hp : c.gate.phase = .cancelled)
    (hseat : c.seat.isTaken = true) (hdone : ∀ p ∈ c.pursuits, p.handlesTask = false) :
    c.aborts = 1 ∧ c.seat = .aborting ∧ c.gate.task = none := by
  have htask : c.gate.task = none := by
    cases ht : c.gate.task with
    | none => rfl
    | some _ =>
        obtain ⟨p, hmem, hseeks⟩ := h.sought hp (by rw [ht]; rfl)
        have hnot := hdone p hmem
        rw [Pursuit.handlesTask, hseeks, Bool.or_true] at hnot
        cases hnot
  have hkeep : c.pursuits.count .keep = 0 :=
    List.count_eq_zero.2 fun hmem => by cases hdone _ hmem
  have hbalance := h.balance
  rw [htask, hkeep, hseat] at hbalance
  have hone : c.aborts = 1 := hbalance
  have haborts := h.aborts_eq
  refine ⟨hone, ?_, htask⟩
  split at haborts
  · next hs => exact hs
  · omega

/-! ## The hook -/

/-- How many valid cancellations there are among a step of the calls. -/
def cancels (c : Controller) : ControlStep → Nat
  | .call .cancel => (c.call .cancel).2.toNat
  | .call _ | .advance _ => 0

/-- How often a step of the calls runs the hook. -/
def hooks (c : Controller) : ControlStep → Nat
  | .call _ => 0
  | .advance i => (c.advance i).2.toNat

/-- What becomes of a controller while it is cancelled and runs its hook so many times. -/
structure CancelCount (c c' : Controller) (cancels hooks : Nat) : Prop where
  /-- It is cancelled by one call, and by none after that. -/
  cancelled : cancels + (if c.gate.phase = .cancelled then 1 else 0) =
    if c'.gate.phase = .cancelled then 1 else 0
  /-- A hook that has run is there no more. -/
  spent : hooks + c'.gate.hook.isSome.toNat = c.gate.hook.isSome.toNat
  /-- Each step that runs the hook, or will, is what a cancellation led to. -/
  led : hooks + c'.pursuits.countP Pursuit.leadsToHook ≤
    cancels + c.pursuits.countP Pursuit.leadsToHook

/-- Once the operation is cancelled, someone comes for the hook. -/
def HookPending (c : Controller) : Prop :=
  c.gate.phase = .cancelled → c.gate.hook.isSome = true →
    ∃ p ∈ c.pursuits, p.leadsToHook = true

/-- Then the hook is gone once no call leads to it any more. -/
theorem HookPending.isSome_eq_false (h : c.HookPending) (hp : c.gate.phase = .cancelled)
    (hdone : ∀ p ∈ c.pursuits, p.leadsToHook = false) : c.gate.hook.isSome = false := by
  cases hs : c.gate.hook.isSome with
  | false => rfl
  | true =>
      obtain ⟨p, hmem, hleads⟩ := h hp hs
      rw [hdone p hmem] at hleads
      cases hleads

theorem CancelCount.refl (c : Controller) : c.CancelCount c 0 0 :=
  ⟨Nat.zero_add _, Nat.zero_add _, Nat.le_refl _⟩

theorem CancelCount.trans {c₁ c₂ c₃ : Controller} {m m' n n' : Nat} (h : c₁.CancelCount c₂ m n)
    (h' : c₂.CancelCount c₃ m' n') : c₁.CancelCount c₃ (m + m') (n + n') where
  cancelled := by have := h.cancelled; have := h'.cancelled; omega
  spent := by have := h.spent; have := h'.spent; omega
  led := by have := h.led; have := h'.led; omega

theorem hook_pursue (c : Controller) (p : Pursuit) :
    (c.pursue p).2.2.toNat + (c.pursue p).1.gate.hook.isSome.toNat =
      c.gate.hook.isSome.toNat := by
  cases p with
  | spawn => simp only [pursue]; split <;> exact Nat.zero_add _
  | keep => simp only [pursue, Gate.storeTask]; split <;> exact Nat.zero_add _
  | retract | abort =>
      simp only [pursue, gate_abort, Gate.takeTask]
      split <;> exact Nat.zero_add _
  | hook => rfl
  | recheck | release => exact Nat.zero_add _

theorem led_pursue (c : Controller) (p : Pursuit) :
    (c.pursue p).2.2.toNat + (c.pursue p).2.1.toList.countP Pursuit.leadsToHook ≤
      [p].countP Pursuit.leadsToHook := by
  cases p with
  | spawn | keep | recheck => simp only [pursue]; split <;> exact Nat.le_refl _
  | hook => exact Bool.toNat_le _
  | retract | abort | release => exact Nat.le_refl _

/-- Only a cancellation that is valid takes the phase there, and has to run the hook. -/
theorem cancelCount_call (c : Controller) (control : Control) :
    c.CancelCount (c.call control).1 (c.cancels (.call control)) 0 := by
  rcases c.call_cases control with hc | ⟨q, hq, hc⟩
  · have hcancels : c.cancels (.call control) = 0 := by cases control <;> simp [cancels, hc]
    rw [hcancels, hc]
    exact .refl c
  · have hopen := hq.source_ne_cancelled
    rw [hc]
    cases control with
    | cancel =>
        have hcancels : c.cancels (.call .cancel) = 1 := by simp [cancels, hc]
        rw [hcancels]
        refine ⟨by simp [hopen, hq.eq_cancelled], Nat.zero_add _, ?_⟩
        rw [List.countP_append]
        change 0 + (_ + 1) ≤ _
        omega
    | start | pause | resume =>
        refine ⟨by simp [cancels, hopen, hq.ne_cancelled], Nat.zero_add _, ?_⟩
        rw [List.countP_append]
        exact Nat.le_refl _

theorem cancelCount_advance (c : Controller) (i : Nat) :
    c.CancelCount (c.advance i).1 0 (c.hooks (.advance i)) := by
  rw [hooks]
  rcases c.advance_cases i with ha | ⟨before, p, after, hsplit, ha⟩
  · rw [ha]; exact .refl c
  · rw [ha]
    refine ⟨by simp only [(c.pursue_keepsPhase p).phase_eq, Nat.zero_add], c.hook_pursue p, ?_⟩
    have hled := c.led_pursue p
    rw [hsplit, ← List.singleton_append]
    simp only [List.countP_append]
    omega

theorem ControllerStep.cancelCount {c' : Controller} {d : Option ControlStep}
    (hs : c.ControllerStep d c') :
    c.CancelCount c' (d.elim 0 c.cancels) (d.elim 0 c.hooks) := by
  cases hs with
  | keep => exact .refl c
  | pass hbefore hafter =>
      refine ⟨?_, Nat.zero_add _, Nat.le_refl _⟩
      simp [hbefore, hafter]
  | call control => exact c.cancelCount_call control
  | advance i => exact c.cancelCount_advance i

theorem ControllerStep.hookPending {c' : Controller} {d : Option ControlStep}
    (hs : c.ControllerStep d c') (h : c.HookPending) :
    c'.HookPending := by
  cases hs with
  | keep => exact h
  | pass hbefore hafter => exact fun hp => absurd hp hafter
  | call control =>
      rcases c.call_cases control with hc | ⟨q, hq, hc⟩
      · rw [hc]; exact h
      · rw [hc]
        intro hp _
        rw [next?_of_cancelled hq hp]
        exact ⟨.abort, List.mem_append_right _ List.mem_cons_self, rfl⟩
  | advance i =>
      rcases c.advance_cases i with ha | ⟨before, p, after, hsplit, ha⟩
      · rw [ha]; exact h
      · rw [ha]
        intro hphase hhook
        have hcancelled : c.gate.phase = .cancelled := (c.pursue_keepsPhase p).phase_eq ▸ hphase
        have hleft : c.gate.hook.isSome = true := by
          have hspent := c.hook_pursue p
          rw [hhook] at hspent
          cases hs : c.gate.hook.isSome with
          | true => rfl
          | false => rw [hs] at hspent; exact absurd hspent (by simp)
        have hpending := h hcancelled hleft
        rw [hsplit] at hpending
        cases p with
        | abort => exact ⟨.hook, by simp [pursue], rfl⟩
        | hook => cases hhook
        | _ => exact exists_of_split hpending rfl _

end Controller

/-! ## Runs -/

namespace Operation

variable {plan : Plan α} {op : Operation α}

/-- How often moves in a row bring something about by way of control calls. -/
def tally (count : Controller → ControlStep → Nat) (plan : Plan α) :
    List (Move α) → Operation α → Nat
  | [], _ => 0
  | m :: rest, op =>
    (op.controlStep? m).elim 0 (count op.withAllCalls) + tally count plan rest (op.step plan m).1

theorem cancelCount_run (plan : Plan α) (moves : List (Move α)) (op : Operation α) :
    op.withAllCalls.CancelCount (run plan moves op).1.withAllCalls
      (tally Controller.cancels plan moves op) (tally Controller.hooks plan moves op) := by
  induction moves generalizing op with
  | nil => exact .refl _
  | cons m rest ih =>
    exact (step_controllerStep plan op m).cancelCount.trans (ih (op.step plan m).1)

/-- An operation that is not started, with the hook that a cancellation is to run. -/
def createWith (plan : Plan α) (hook : Option Unit) : Operation α :=
  (create plan).withGate { (create plan).gate with hook }

theorem withAllCalls_createWith (hk : plan.kind = .single) (hook : Option Unit) :
    (createWith plan hook).withAllCalls = { gate := { kind := .single, hook } } := by
  have hc : create plan = { controller := .create .single } := by simp [create, hk]
  rw [createWith, hc]
  rfl

/-- However the steps of a start and of any number of cancellations come in between each
other and those of the worker: only a task that runs is aborted, and once at most; when the
operation is cancelled and no call has anything to do with the task any more, it has been
aborted once and its slot is empty.  One call to cancel is valid if the operation is
cancelled, and none if it is not; the hook is run by what it does, once if there is a hook,
and a call that is not valid does nothing. -/
theorem aborts_once (plan : Plan α) (hk : plan.kind = .single) (hook : Option Unit)
    (moves : List (Move α)) :
    let start := createWith plan hook
    let op := (run plan moves start).1
    let cancels := tally Controller.cancels plan moves start
    let hooks := tally Controller.hooks plan moves start
    op.controller.aborts ≤ op.isSeated.toNat ∧
    (op.phase = .cancelled → op.isSeated = true →
      (∀ p ∈ op.withAllCalls.pursuits, p.handlesTask = false) →
      op.controller.aborts = 1 ∧ op.controller.seat = .aborting ∧ op.gate.task = none) ∧
    cancels = (if op.phase = .cancelled then 1 else 0) ∧
    hooks ≤ cancels ∧
    (op.phase = .cancelled → (∀ p ∈ op.withAllCalls.pursuits, p.leadsToHook = false) →
      hooks = hook.isSome.toNat) ∧
    ∀ m, op.controlStep? m = some (.call .cancel) → (op.withAllCalls.call .cancel).2 = false →
      (op.step plan m).1.withAllCalls = op.withAllCalls := by
  intro start op cancels hooks
  have hstart : start.withAllCalls = { gate := { kind := .single, hook } } :=
    withAllCalls_createWith hk hook
  have htaken : op.withAllCalls.TaskInvariant := by
    refine run_invariant (fun op m h => (step_controllerStep plan op m).taskInvariant h) moves ?_
    rw [hstart]
    exact ⟨rfl, rfl, rfl, fun hp => by cases hp⟩
  have hpending : op.withAllCalls.HookPending := by
    refine run_invariant (fun op m h => (step_controllerStep plan op m).hookPending h) moves ?_
    rw [hstart]
    exact fun hp => by cases hp
  have hcount : start.withAllCalls.CancelCount op.withAllCalls cancels hooks :=
    cancelCount_run plan moves start
  rw [hstart] at hcount
  have hcancels : cancels = if op.phase = .cancelled then 1 else 0 := hcount.cancelled
  refine ⟨?_, htaken.aborted, hcancels, ?_, fun hp hdone => ?_, fun m hm hv => ?_⟩
  · have hbalance : op.controller.aborts + _ + _ = op.isSeated.toNat := htaken.balance
    omega
  · have hled : hooks + _ ≤ cancels + 0 := hcount.led
    omega
  · have hspent : hooks + op.withAllCalls.gate.hook.isSome.toNat = hook.isSome.toNat :=
      hcount.spent
    rw [hpending.isSome_eq_false hp hdone] at hspent
    exact hspent
  · have hctrl := step_controllerStep plan op m
    rw [hm] at hctrl
    rw [hctrl.eq_call, Controller.call_of_invalid hv]

/-- A cancellation comes between the spawning of the task and its keeping: it finds no task,
and the start aborts the one that it has kept.  Another cancellation is not valid. -/
theorem aborts_once_crossed :
    let plan : Plan Nat := { kind := .single, decode := fun _ => .ok 0 }
    let moves : List (Move Nat) :=
      [.control .start, .pursue 0, .control .cancel, .pursue 1, .pursue 0, .pursue 1,
        .control .cancel, .pursue 0, .pursue 0]
    let r := run plan moves (createWith plan (some ()))
    plan.kind = .single ∧ r.1.withAllCalls.pursuits = [.release] ∧
      r.1.controller.aborts = 1 ∧ r.1.controller.seat = .aborting ∧ r.1.gate.task = none ∧
      tally Controller.cancels plan moves (createWith plan (some ())) = 1 ∧
      tally Controller.hooks plan moves (createWith plan (some ())) = 1 := by
  intro plan moves r
  have hend : r.1.phase = .cancelled ∧ r.1.isSeated = true ∧
      r.1.withAllCalls.pursuits = [.release] := by
    simp only [r, plan, moves]
    decide +kernel
  obtain ⟨hp, hseated, hcalls⟩ := hend
  have hdone : ∀ p ∈ r.1.withAllCalls.pursuits, p.handlesTask = false ∧ p.leadsToHook = false := by
    rw [hcalls]; decide
  obtain ⟨-, hone, hcancels, -, hhooks, -⟩ := aborts_once plan rfl (some ()) moves
  obtain ⟨haborts, hseat, htask⟩ := hone hp hseated fun p hmem => (hdone p hmem).1
  simp only [r] at hcalls ⊢
  exact ⟨rfl, hcalls, haborts, hseat, htask, hcancels.trans (if_pos hp),
    hhooks hp fun p hmem => (hdone p hmem).2⟩

end Operation
end Switchboard
