import Switchboard.Operation.Gate

/-!
# Switchboard.Operation.Controller

Control calls on an operation, from any thread.  A call that is valid changes the
phase at once; what it has to do after that it does in steps, and other calls and
the worker may come in between.

* `enact` — what a call does to the phase;
* `call` — the first part of a call, and whether it was valid;
* `advance` — one more step of a call under way;
* `perform` — a whole call with nothing in between.
-/

namespace Switchboard

/-- A call that controls an operation. -/
inductive Control where
  | start | pause | resume | cancel
  deriving DecidableEq, Repr, Inhabited

/-- Where the worker of an operation is. -/
inductive Seat where
  /-- It waits for the operation to be started. -/
  | held
  /-- It runs as a task. -/
  | spawned
  /-- It runs as a task that is told to stop. -/
  | aborting
  /-- It was let go before it ran. -/
  | released
  deriving DecidableEq, Repr, Inhabited

/-- Whether the worker runs as a task. -/
def Seat.isTaken : Seat → Bool
  | spawned | aborting => true
  | held | released => false

/-- What a control call under way has to do next. -/
inductive Pursuit where
  /-- A start hands the worker over, -/
  | spawn
  /-- keeps the task, -/
  | keep
  /-- looks whether the operation was cancelled meanwhile, -/
  | recheck
  /-- and aborts the task if it was. -/
  | retract
  /-- A cancellation aborts the task, -/
  | abort
  /-- runs the hook, -/
  | hook
  /-- and lets a worker go that was never started. -/
  | release
  deriving DecidableEq, Repr, Inhabited

/-- What a valid call has to do once it has changed the phase. -/
def Control.next? : Control → Option Pursuit
  | start => some .spawn
  | cancel => some .abort
  | pause | resume => none

/-- Changes the phase, if a call is valid. -/
def Gate.control? (g : Gate τ η) : Control → Option (Gate τ η)
  | .start => g.begin
  | .pause => g.pause
  | .resume => g.resume
  | .cancel => g.cancel

structure Controller where
  gate : Gate Unit Unit
  seat : Seat := .held
  /-- How often the task was told to stop. -/
  aborts : Nat := 0
  /-- The control calls under way. -/
  pursuits : List Pursuit := []
  deriving DecidableEq, Repr

namespace Controller

def create (kind : Kind) : Controller := { gate := Gate.create kind }

/-! ## Calls in steps -/

/-- Changes the phase, if the call is valid: whether it was, and what it has to do next. -/
def enact (c : Controller) (control : Control) : Controller × Bool × Option Pursuit :=
  match c.gate.control? control with
  | some gate => ({ c with gate }, true, control.next?)
  | none => (c, false, none)

/-- The first part of a call, and whether it was valid. -/
def call (c : Controller) (control : Control) : Controller × Bool :=
  let (c', ok, next) := c.enact control
  ({ c' with pursuits := c.pursuits ++ next.toList }, ok)

/-- Tells the task to stop, if there is a handle of it. -/
def abort (c : Controller) : Option Unit → Controller
  | none => c
  | some () => { c with
      aborts := c.aborts + 1
      seat := if c.seat = .spawned then .aborting else c.seat }

/-- One step of what a call has to do: what it has to do next, and whether the hook
is to run. -/
def pursue (c : Controller) : Pursuit → Controller × Option Pursuit × Bool
  | .spawn =>
    if c.seat = .held then ({ c with seat := .spawned }, some .keep, false) else (c, none, false)
  | .keep =>
    ({ c with gate := c.gate.storeTask () },
      if c.gate.kind = .single then some .recheck else none, false)
  | .recheck => (c, if c.gate.phase = .cancelled then some .retract else none, false)
  | .retract =>
    let (gate, task) := c.gate.takeTask
    ({ c with gate }.abort task, none, false)
  | .abort =>
    let (gate, task) := c.gate.takeTask
    ({ c with gate }.abort task, some .hook, false)
  | .hook =>
    let (gate, hook) := c.gate.takeHook
    ({ c with gate }, some .release, hook.isSome)
  | .release => ({ c with seat := if c.seat = .held then .released else c.seat }, none, false)

/-- One step of the call under way at an index, and whether the hook is to run. -/
def advance (c : Controller) (i : Nat) : Controller × Bool :=
  match c.pursuits[i]? with
  | none => (c, false)
  | some p =>
    let (c', next, hook) := c.pursue p
    ({ c' with pursuits := c.pursuits.take i ++ next.toList ++ c.pursuits.drop (i + 1) }, hook)

/-! ## Whole calls -/

/-- All that is left of the call under way at an index; no call takes more than
four steps. -/
def conclude (c : Controller) (i : Nat) : Controller × Bool :=
  let (c, h₁) := c.advance i
  let (c, h₂) := c.advance i
  let (c, h₃) := c.advance i
  let (c, h₄) := c.advance i
  (c, h₁ || h₂ || h₃ || h₄)

/-- A whole call: whether it was valid, and whether the hook is to run. -/
def perform (c : Controller) (control : Control) : Controller × Bool × Bool :=
  let (c', ok) := c.call control
  let (c', hook) := c'.conclude c.pursuits.length
  (c', ok, hook)

end Controller
end Switchboard
