import Switchboard.Operation.Script
import Switchboard.Proofs.Operation.Work

/-!
# Switchboard.Proofs.Operation.Course

The course of an operation at its gate, whoever calls there and in whatever order.  A
listener that makes calls while it hears an event makes them between two others, so
calls in a row are all that there is.

* `Gate.Call`, `Gate.run` — what can be done at a gate, and many such calls in a row;
* `Gate.leads_after` — every call makes one of the passages from phase to phase;
* `Mark` — a phase in two parts, the second of which outlives a pause, and `Mark.Reads`,
  which says how the two parts are read;
* `Script.steps_course` — a script with calls inside of calls is a row of calls;
* `course_of_calls` — the laws of the course.
-/

namespace Switchboard

/-! ## Calls -/

namespace Gate

variable {τ η : Type}

/-- What can be done at a gate. -/
inductive Call where
  | control (c : Control)
  /-- A worker looks whether it may go on. -/
  | enter
  /-- A worker brings the operation to an end, if it runs. -/
  | finish (last : Phase) (isTerminal : last.isTerminal = true)

/-- A worker that looks sets a started operation running, and does nothing else. -/
theorem tryEnter_fst (g : Gate τ η) :
    g.tryEnter.1 = if g.phase = .started then g.set .running else g := by
  unfold tryEnter
  split <;> simp_all

/-- What finishes an operation that runs does nothing to any other. -/
theorem finish_fst (g : Gate τ η) (last : Phase) :
    (g.finish last).1 = if g.phase = .running then g.set last else g := by
  unfold finish
  by_cases hp : g.phase = .running
  · simp [hp, outcome]
  · have ho : outcome g.phase ≠ .delivered := outcome_ne_delivered hp
    rw [if_neg hp]
    split
    · next h => exact absurd h ho
    · rfl

/-- The gate after a call; one that is not valid does nothing. -/
def after (g : Gate τ η) : Call → Gate τ η
  | .control c => (g.control? c).getD g
  | .enter => g.tryEnter.1
  | .finish last _ => (g.finish last).1

/-- The gate after calls in a row. -/
def run (g : Gate τ η) (calls : List Call) : Gate τ η := calls.foldl after g

/-! ## Passages -/

@[simp] theorem kind_after (g : Gate τ η) (c : Call) : (g.after c).kind = g.kind := by
  cases c with
  | control c =>
      rw [after, control?_eq]
      cases g.phase.control? g.kind c <;> rfl
  | enter => rw [after, tryEnter_fst]; split <;> rfl
  | finish last _ => rw [after, finish_fst]; split <;> rfl

@[simp] theorem kind_run (g : Gate τ η) (calls : List Call) : (g.run calls).kind = g.kind := by
  induction calls generalizing g with
  | nil => rfl
  | cons c rest ih => exact (ih (g.after c)).trans (g.kind_after c)

theorem run_cons (g : Gate τ η) (c : Call) (calls : List Call) :
    g.run (c :: calls) = (g.after c).run calls := rfl

@[simp] theorem run_append (g : Gate τ η) (calls more : List Call) :
    g.run (calls ++ more) = (g.run calls).run more := List.foldl_append

/-- Every call makes one of the passages. -/
theorem leads_after (g : Gate τ η) (c : Call) : Phase.Leads g.kind g.phase (g.after c).phase := by
  cases c with
  | control c =>
      rw [after, control?_eq]
      cases hq : g.phase.control? g.kind c with
      | none => exact .stay _
      | some q => exact .turn (Phase.turn_iff.1 hq)
  | enter =>
      rw [after, tryEnter_fst]
      split
      · next hp => rw [hp]; exact .enter
      · exact .stay _
  | finish last ht =>
      rw [after, finish_fst]
      split
      · next hp => rw [hp]; exact .finish ht
      · exact .stay _

/-- What every passage keeps, calls in a row keep. -/
theorem run_invariant {P : Phase → Prop} {g : Gate τ η}
    (hleads : ∀ p q, Phase.Leads g.kind p q → P p → P q) (calls : List Call)
    (h : P g.phase) : P (g.run calls).phase := by
  induction calls generalizing g with
  | nil => exact h
  | cons c rest ih =>
      exact ih (by rwa [kind_after]) (hleads _ _ (g.leads_after c) h)

theorem rank_le_run (g : Gate τ η) (calls : List Call) :
    g.phase.rank ≤ (g.run calls).phase.rank :=
  run_invariant (P := fun p => g.phase.rank ≤ p.rank)
    (fun _ _ hl hp => Nat.le_trans hp hl.rank_le) calls (Nat.le_refl _)

theorem run_of_isTerminal {g : Gate τ η} (h : g.phase.isTerminal = true) (calls : List Call) :
    (g.run calls).phase = g.phase :=
  run_invariant (P := fun p => p = g.phase)
    (fun _ _ hl hp => (hl.of_isTerminal (by rw [hp]; exact h)).trans hp) calls rfl

/-! ## Pauses -/

/-- Whether a call can end a pause. -/
def Call.endsPause : Call → Bool
  | control .resume | control .cancel => true
  | _ => false

theorem after_of_paused {g : Gate τ η} {back : Resumption} (h : g.phase = .paused back) {c : Call}
    (hc : c.endsPause = false) : (g.after c).phase = .paused back := by
  cases c with
  | control c =>
      rw [after, control?_eq, h]
      cases c with
      | resume | cancel => cases hc
      | start | pause => exact h
  | enter => rw [after, tryEnter_fst, if_neg (by simp [h])]; exact h
  | finish last ht => rw [after, finish_fst, if_neg (by simp [h])]; exact h

theorem run_of_paused {g : Gate τ η} {back : Resumption} (h : g.phase = .paused back)
    {calls : List Call} (hc : ∀ c ∈ calls, c.endsPause = false) :
    (g.run calls).phase = .paused back := by
  induction calls generalizing g with
  | nil => exact h
  | cons c rest ih =>
      exact ih (after_of_paused h (hc c List.mem_cons_self))
        fun c hm => hc c (List.mem_cons_of_mem _ hm)

/-- A pause remembers the phase that it puts off. -/
theorem phase_pause {g g' : Gate τ η} (h : g.pause = some g') :
    ∃ back : Resumption, g'.phase = .paused back ∧ back.phase = g.phase := by
  obtain ⟨q, hq, rfl⟩ := Option.map_eq_some_iff.1 h
  have ht : Phase.Turn g.kind .pause g.phase q := Phase.turn_iff.1 hq
  generalize g.phase = p at ht ⊢
  cases ht with
  | hold => exact ⟨.started, rfl, rfl⟩
  | pause => exact ⟨.running, rfl, rfl⟩

/-- What was paused is resumed where it was, whatever was tried in between. -/
theorem resume_of_pause {g g' : Gate τ η} (h : g.pause = some g') {calls : List Call}
    (hc : ∀ c ∈ calls, c.endsPause = false) :
    ∃ g'', (g'.run calls).resume = some g'' ∧ g''.phase = g.phase := by
  obtain ⟨back, hp, hback⟩ := phase_pause h
  have hpaused := run_of_paused hp hc
  exact ⟨(g'.run calls).set back.phase, by simp [resume, hpaused, Phase.resume?], hback⟩

/-- A control call is valid exactly if it changes the phase. -/
theorem isSome_control?_iff (g : Gate τ η) (c : Control) :
    (g.control? c).isSome = true ↔ (g.after (.control c)).phase ≠ g.phase := by
  rw [after, control?_eq]
  cases hq : g.phase.control? g.kind c with
  | none => simp
  | some q => simpa using (Phase.turn_iff.1 hq).ne

end Gate

/-! ## Phases in two parts -/

/-- Where an operation stands, whatever a paused one goes back to. -/
inductive Standing where
  | created | started | running | paused | completed | cancelled | failed
  deriving DecidableEq, Repr, Inhabited

def Standing.isTerminal : Standing → Bool
  | completed | cancelled | failed => true
  | _ => false

def Phase.standing : Phase → Standing
  | created => .created
  | started => .started
  | running => .running
  | paused _ => .paused
  | completed => .completed
  | cancelled => .cancelled
  | failed => .failed

/-- A phase in two parts: where the operation stands, and what a pause would end in.  Only
a pause writes the second part, and it stays there when the pause is over. -/
structure Mark where
  now : Standing := .created
  back : Standing := .created
  deriving DecidableEq, Repr

namespace Mark

/-- What a control call makes of a mark, if it is valid. -/
def control? (kind : Kind) (m : Mark) : Control → Option Mark
  | .start => if m.now = .created then some { m with now := .started } else none
  | .pause => match m.now with
    | .started => some ⟨.paused, .started⟩
    | .running => if kind = .stream then some ⟨.paused, .running⟩ else none
    | _ => none
  | .resume => if m.now = .paused then some { m with now := m.back } else none
  | .cancel => if m.now.isTerminal then none else some { m with now := .cancelled }

/-- The mark after a call. -/
def after (kind : Kind) (m : Mark) : Gate.Call → Mark
  | .control c => (m.control? kind c).getD m
  | .enter => if m.now = .started then { m with now := .running } else m
  | .finish last _ => if m.now = .running then { m with now := last.standing } else m

/-- The mark after calls in a row. -/
def run (kind : Kind) (m : Mark) (calls : List Gate.Call) : Mark := calls.foldl (after kind) m

/-- How a mark is read.  Its second part counts only during a pause. -/
structure Reads (m : Mark) (p : Phase) : Prop where
  now : m.now = p.standing
  back : ∀ back : Resumption, p = .paused back → m.back = back.phase.standing

variable {τ η : Type} {kind : Kind} {m : Mark} {p : Phase} {g : Gate τ η}

/-- A mark of a phase that is not paused is read whatever its second part is. -/
theorem Reads.of_ne_paused (hn : m.now = p.standing) (hp : p.standing ≠ .paused) : m.Reads p :=
  ⟨hn, fun back hb => by rw [hb] at hp; exact absurd rfl hp⟩

/-- A control call is valid for a mark exactly if it is for the phase, and does the same. -/
theorem Reads.control? (h : m.Reads p) (kind : Kind) (c : Control) :
    Option.Rel Reads (m.control? kind c) (p.control? kind c) := by
  obtain ⟨now, back⟩ := m
  have hnow : now = p.standing := h.now
  subst hnow
  cases c with
  | start =>
      cases p with
      | created => exact .some (.of_ne_paused rfl (by decide))
      | _ => exact .none
  | pause =>
      cases p with
      | started => exact .some ⟨rfl, fun b hb => by cases hb; rfl⟩
      | running =>
          cases kind with
          | single => exact .none
          | stream => exact .some ⟨rfl, fun b hb => by cases hb; rfl⟩
      | _ => exact .none
  | resume =>
      cases p with
      | paused b =>
          have hback : back = b.phase.standing := h.back b rfl
          subst hback
          exact .some (.of_ne_paused rfl (by cases b <;> decide))
      | _ => exact .none
  | cancel =>
      cases p with
      | completed | cancelled | failed => exact .none
      | _ => exact .some (.of_ne_paused rfl (by decide))

theorem standing_eq_started : p.standing = .started ↔ p = .started := by
  cases p <;> simp [Phase.standing]

theorem standing_eq_running : p.standing = .running ↔ p = .running := by
  cases p <;> simp [Phase.standing]

theorem standing_ne_paused {p : Phase} (h : p.isTerminal = true) : p.standing ≠ .paused := by
  cases p with
  | completed | cancelled | failed => decide
  | _ => cases h

/-- A mark and a phase that are read the same are so after every call. -/
theorem Reads.after (h : m.Reads g.phase) (c : Gate.Call) :
    (m.after g.kind c).Reads (g.after c).phase := by
  cases c with
  | control c =>
      have hrel := h.control? g.kind c
      rw [Mark.after, Gate.after, Gate.control?_eq]
      generalize m.control? g.kind c = m? at hrel
      generalize g.phase.control? g.kind c = p? at hrel
      cases hrel with
      | some hr => exact hr
      | none => exact h
  | enter =>
      simp only [Mark.after, Gate.after, Gate.tryEnter_fst, h.now, standing_eq_started]
      split
      · exact .of_ne_paused rfl nofun
      · exact h
  | finish last ht =>
      simp only [Mark.after, Gate.after, Gate.finish_fst, h.now, standing_eq_running]
      split
      · exact .of_ne_paused rfl (standing_ne_paused ht)
      · exact h

theorem Reads.run (h : m.Reads g.phase) (calls : List Gate.Call) :
    (m.run g.kind calls).Reads (g.run calls).phase := by
  induction calls generalizing m g with
  | nil => exact h
  | cons c rest ih =>
      have hrest := ih (h.after c)
      rw [Gate.kind_after] at hrest
      exact hrest

/-- During a pause the second part is one of the two phases that can be put off. -/
theorem Reads.back_of_paused (h : m.Reads p) (hm : m.now = .paused) :
    m.back = .started ∨ m.back = .running := by
  have hp : p.standing = .paused := h.now.symm.trans hm
  cases p with
  | paused back =>
      rw [h.back back rfl]
      cases back with
      | started => exact .inl rfl
      | running => exact .inr rfl
  | _ => cases hp

end Mark

/-! ## Scripts -/

namespace Gate

variable {τ η τ' η' : Type}

/-- Gates that differ in no more than their tasks, their hooks, and how often they were
set. -/
structure Alike (g : Gate τ η) (g' : Gate τ' η') : Prop where
  kind : g.kind = g'.kind
  phase : g.phase = g'.phase

variable {g : Gate τ η} {g' : Gate τ' η'}

theorem Alike.trans {τ'' η'' : Type} {g'' : Gate τ'' η''} (h : Alike g g') (h' : Alike g' g'') :
    Alike g g'' :=
  ⟨h.kind.trans h'.kind, h.phase.trans h'.phase⟩

theorem Alike.after (h : Alike g g') (c : Call) : Alike (g.after c) (g'.after c) := by
  refine ⟨by rw [kind_after, kind_after, h.kind], ?_⟩
  cases c with
  | control c =>
      rw [Gate.after, Gate.after, control?_eq, control?_eq, h.kind, h.phase]
      cases g'.phase.control? g'.kind c with
      | none => exact h.phase
      | some q => rfl
  | enter =>
      rw [Gate.after, Gate.after, tryEnter_fst, tryEnter_fst, h.phase]
      split
      · rfl
      · exact h.phase
  | finish last ht =>
      rw [Gate.after, Gate.after, finish_fst, finish_fst, h.phase]
      split
      · rfl
      · exact h.phase

theorem Alike.run (h : Alike g g') (calls : List Call) : Alike (g.run calls) (g'.run calls) := by
  induction calls generalizing g g' with
  | nil => exact h
  | cons c rest ih => exact ih (h.after c)

end Gate

namespace Script

mutual

/-- Whether whatever is finished in a step is over then. -/
def Step.isProper : Step → Bool
  | .deliver inside => areProper inside
  | .finish last inside => last.isTerminal && areProper inside
  | _ => true

def areProper : List Step → Bool
  | [] => true
  | t :: rest => t.isProper && areProper rest

end

/-- The step that makes a control call. -/
def Step.ofControl : Control → Step
  | .start => .begin
  | .pause => .pause
  | .resume => .resume
  | .cancel => .cancel

/-- A control call in a script is one at the gate.  What a cancellation does after it has
changed the phase changes it no more. -/
theorem course_control (s : State) (c : Control) :
    Gate.Alike (s.gate.after (.control c)) (step s (.ofControl c)).1.gate ∧
      (step s (.ofControl c)).2 = .flag (s.gate.control? c).isSome := by
  cases c with
  | start | pause | resume =>
      simp only [Step.ofControl, step, State.control, Gate.after, Gate.control?]
      split
      · next h => rw [h]; exact ⟨⟨rfl, rfl⟩, rfl⟩
      · next h => rw [h]; exact ⟨⟨rfl, rfl⟩, rfl⟩
  | cancel =>
      simp only [Step.ofControl, step, State.cancel, Gate.cancelAll, Gate.after, Gate.control?]
      cases s.gate.cancel with
      | none => exact ⟨⟨rfl, rfl⟩, rfl⟩
      | some g =>
          simp only [Option.map_some, Option.getD_some, Gate.takeTask, Gate.takeHook]
          split <;> exact ⟨⟨rfl, rfl⟩, rfl⟩

/-- A control call in a script answers whether it has changed the phase. -/
theorem flag_control_iff (s : State) (c : Control) :
    (step s (.ofControl c)).2 = .flag true ↔
      (step s (.ofControl c)).1.gate.phase ≠ s.gate.phase := by
  obtain ⟨hgate, hflag⟩ := course_control s c
  rw [hflag, ← hgate.phase, ← s.gate.isSome_control?_iff c, Answer.flag.injEq]

/-- A worker that has asked before and knows of every change does not ask again. -/
theorem course_enter (s : State) (label : String) :
    ∃ calls, Gate.Alike (s.gate.run calls) (s.enter label).1.gate := by
  unfold State.enter Gate.poll
  by_cases hseen : s.waiting.lookup label = some s.gate.version
  · rw [if_pos hseen]
    exact ⟨[], rfl, rfl⟩
  · rw [if_neg hseen]
    refine ⟨[.enter], ?_⟩
    have hrun : s.gate.run [.enter] = s.gate.tryEnter.1 := rfl
    rw [hrun]
    cases s.gate.tryEnter with
    | mk g answer => cases answer <;> exact ⟨rfl, rfl⟩

theorem course_task (s : State) : Gate.Alike s.gate s.task.1.gate := by
  simp only [State.task, Gate.setTask, Gate.storeTask, Gate.recheckTask, Gate.takeTask]
  split <;> split <;> exact ⟨rfl, rfl⟩

mutual

/-- Each step of a script is a row of calls. -/
theorem step_course (s : State) (t : Step) (h : t.isProper = true) :
    ∃ calls, Gate.Alike (s.gate.run calls) (step s t).1.gate := by
  cases t with
  | begin => exact ⟨[.control .start], (course_control s .start).1⟩
  | pause => exact ⟨[.control .pause], (course_control s .pause).1⟩
  | resume => exact ⟨[.control .resume], (course_control s .resume).1⟩
  | cancel => exact ⟨[.control .cancel], (course_control s .cancel).1⟩
  | state => exact ⟨[], rfl, rfl⟩
  | hook label => exact ⟨[], rfl, rfl⟩
  | enter label => exact course_enter s label
  | task => exact ⟨[], course_task s⟩
  | deliver inside =>
      unfold step
      cases s.gate.deliver with
      | delivered => exact steps_course s inside h
      | deferred | closed => exact ⟨[], rfl, rfl⟩
  | finish last inside =>
      obtain ⟨hlast, hinside⟩ := (Bool.and_eq_true ..).mp h
      unfold step
      cases hf : s.gate.finish last with
      | mk g d =>
          cases d with
          | delivered =>
              obtain ⟨calls, hc⟩ := steps_course { s with gate := g } inside hinside
              refine ⟨.finish last hlast :: calls, ?_⟩
              have hg : s.gate.after (.finish last hlast) = g := congrArg Prod.fst hf
              rw [Gate.run_cons, hg]
              exact hc
          | deferred | closed => exact ⟨[], rfl, rfl⟩

/-- A script is a row of calls, those that a listener makes between those around them. -/
theorem steps_course (s : State) (ts : List Step) (h : areProper ts = true) :
    ∃ calls, Gate.Alike (s.gate.run calls) (steps s ts).1.gate := by
  cases ts with
  | nil => exact ⟨[], rfl, rfl⟩
  | cons t rest =>
      obtain ⟨ht, hrest⟩ := (Bool.and_eq_true ..).mp h
      obtain ⟨calls, hc⟩ := step_course s t ht
      obtain ⟨more, hm⟩ := steps_course (step s t).1 rest hrest
      refine ⟨calls ++ more, ?_⟩
      rw [Gate.run_append]
      exact (hc.run more).trans hm

end

end Script

/-! ## The laws of the course -/

/-- A gate after any calls in a row, from its creation on.  The rank of its phase never goes
down; a phase that is over stays; read in two parts, a paused phase has one of two to go back
to; a pause that is resumed leads back to where it was; a control call is valid exactly if
it changes the phase; and an operation with one response is never paused once it runs.  All
of this holds with calls inside of calls, because a script with such calls leads where a row
of calls leads, and a control call in it answers whether it changed the phase. -/
theorem course_of_calls (τ η : Type) (kind : Kind) (calls : List Gate.Call) :
    let g := (Gate.create kind : Gate τ η).run calls
    let m := Mark.run kind {} calls
    (∀ more, g.phase.rank ≤ (g.run more).phase.rank) ∧
    (g.phase.isTerminal = true → ∀ more, (g.run more).phase = g.phase) ∧
    (m.Reads g.phase ∧ (m.now = .paused → m.back = .started ∨ m.back = .running)) ∧
    (∀ g' more, g.pause = some g' → (∀ c ∈ more, c.endsPause = false) →
      ∃ g'', (g'.run more).resume = some g'' ∧ g''.phase = g.phase) ∧
    (∀ c, (g.control? c).isSome = true ↔ (g.after (.control c)).phase ≠ g.phase) ∧
    (kind = .single → g.phase = .running → ∀ more back, (g.run more).phase ≠ .paused back) ∧
    ∀ s : Script.State, Gate.Alike g s.gate →
      (∀ c, (Script.step s (.ofControl c)).2 = .flag true ↔
        (Script.step s (.ofControl c)).1.gate.phase ≠ s.gate.phase) ∧
      ∀ script, Script.areProper script = true →
        ∃ more, Gate.Alike (g.run more) (Script.steps s script).1.gate := by
  intro g m
  have hkind : g.kind = kind := Gate.kind_run (Gate.create kind : Gate τ η) calls
  have hreads : m.Reads g.phase :=
    Mark.Reads.run (g := (Gate.create kind : Gate τ η)) (.of_ne_paused rfl nofun) calls
  refine ⟨g.rank_le_run, fun ht more => Gate.run_of_isTerminal ht more,
    ⟨hreads, hreads.back_of_paused⟩, fun g' more hg hc => Gate.resume_of_pause hg hc,
    g.isSome_control?_iff, fun hk hr more back hp => ?_, fun s hs => ⟨?_, fun script hp => ?_⟩⟩
  · have hactive : (g.run more).phase.isRunningOrOver = true := by
      refine Gate.run_invariant (P := fun p => p.isRunningOrOver = true) (fun p q hl => ?_) more ?_
      · rw [hkind, hk] at hl
        exact hl.isRunningOrOver
      · rw [hr]; rfl
    rw [hp] at hactive
    cases hactive
  · exact Script.flag_control_iff s
  · obtain ⟨more, hm⟩ := Script.steps_course s script hp
    exact ⟨more, (hs.run more).trans hm⟩

end Switchboard
