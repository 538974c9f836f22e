import Switchboard.Operation.Phase

/-!
# Switchboard.Operation.Gate

The gate of an operation: its phase, the task that a cancellation aborts, and the
hook that one runs.  Every event passes the gate on its way to the listener, so
none gets through that the phase does not allow.

* `begin`, `pause`, `resume`, `cancel` — control calls; `none` when one is not valid;
* `poll` — lets a worker ask whether it may go on;
* `admits`, `finish` — what becomes of an event.

Each change of the phase has a number, so that a worker that waits can tell whether
there was one since it looked last.
-/

namespace Switchboard

/-- The gate of an operation, with tasks of type `τ` and hooks of type `η`. -/
structure Gate (τ η : Type) where
  kind : Kind
  phase : Phase := .created
  /-- How often the phase was set. -/
  version : Nat := 0
  task : Option τ := none
  hook : Option η := none
  deriving DecidableEq, Repr

/-- What becomes of an event at the gate. -/
inductive Delivery where
  | delivered
  /-- The operation is paused: the event has to wait. -/
  | deferred
  /-- The operation is over: the event is dropped. -/
  | closed
  deriving DecidableEq, Repr, Inhabited

def Delivery.name : Delivery → String
  | delivered => "Delivered"
  | deferred => "Deferred"
  | closed => "Closed"

namespace Gate

variable {τ η : Type}

def create (kind : Kind) : Gate τ η := { kind }

/-- Sets the phase. -/
def set (g : Gate τ η) (p : Phase) : Gate τ η := { g with phase := p, version := g.version + 1 }

/-! ## Control calls -/

def begin (g : Gate τ η) : Option (Gate τ η) := g.phase.begin?.map g.set

def pause (g : Gate τ η) : Option (Gate τ η) := (g.phase.pause? g.kind).map g.set

def resume (g : Gate τ η) : Option (Gate τ η) := g.phase.resume?.map g.set

/-- The first part of a cancellation; the task and the hook come after it. -/
def cancel (g : Gate τ η) : Option (Gate τ η) := g.phase.cancel?.map g.set

/-- Takes the task out; a stream has none to abort. -/
def takeTask (g : Gate τ η) : Gate τ η × Option τ :=
  if g.kind = .single then ({ g with task := none }, g.task) else (g, none)

/-- Takes the hook out. -/
def takeHook (g : Gate τ η) : Gate τ η × Option η := ({ g with hook := none }, g.hook)

/-- Sets the hook, in place of one that is there. -/
def onCancel (g : Gate τ η) (hook : η) : Gate τ η := { g with hook := some hook }

/-- Keeps the task; a stream's is left to itself. -/
def storeTask (g : Gate τ η) (task : τ) : Gate τ η :=
  if g.kind = .single then { g with task := some task } else g

/-- Takes the task out if the operation was cancelled before the task was kept. -/
def recheckTask (g : Gate τ η) : Gate τ η × Option τ :=
  if g.phase = .cancelled then g.takeTask else (g, none)

/-- Keeps the task, or gives it back to be aborted if the operation is cancelled. -/
def setTask (g : Gate τ η) (task : τ) : Gate τ η × Option τ := (g.storeTask task).recheckTask

/-- A whole cancellation: the gate, the task to abort, and the hook to run. -/
def cancelAll (g : Gate τ η) : Option (Gate τ η × Option τ × Option η) :=
  g.cancel.map fun g =>
    let (g, task) := g.takeTask
    let (g, hook) := g.takeHook
    (g, task, hook)

/-! ## Workers -/

/-- Asks whether a worker may go on: it starts running if it has not, and has no
answer yet while the operation is not started or paused. -/
def tryEnter (g : Gate τ η) : Gate τ η × Option Bool :=
  match g.phase with
  | .started => (g.set .running, some true)
  | .running => (g, some true)
  | .created | .paused _ => (g, none)
  | _ => (g, some false)

/-- Lets a worker ask once; `seen` is the last change that it knows of, if it has
asked before.  It gets an answer, or the change to wait beyond. -/
def poll (g : Gate τ η) (seen : Option Nat) : Gate τ η × (Bool ⊕ Nat) :=
  if seen = some g.version then (g, .inr g.version)
  else match g.tryEnter with
    | (g', some b) => (g', .inl b)
    | (g', none) => (g', .inr g.version)

/-! ## Events -/

/-- What becomes of an event in a phase. -/
def outcome : Phase → Delivery
  | .running => .delivered
  | .completed | .cancelled | .failed => .closed
  | .created | .started | .paused _ => .deferred

/-- What becomes of an event that is not the last. -/
def deliver (g : Gate τ η) : Delivery := outcome g.phase

/-- Moves the operation to its last phase, if its last event gets through. -/
def finish (g : Gate τ η) (last : Phase) : Gate τ η × Delivery :=
  match outcome g.phase with
  | .delivered => (g.set last, .delivered)
  | d => (g, d)

end Gate
end Switchboard
