import Switchboard.Operation.Controller

/-!
# Switchboard.Operation.Trial

A controller with the plainest worker: it waits until it may go on, and then ends
the operation, or waits for ever.  What the worker does is written down.  It moves
only when it is run.
-/

namespace Switchboard.Trial

/-- Where the worker is. -/
inductive Stage where
  /-- It waits to go on; `seen` is the last change that it knows of. -/
  | entering (seen : Option Nat)
  /-- It waits for ever. -/
  | idle
  | over
  deriving DecidableEq, Repr, Inhabited

structure State where
  controller : Controller
  /-- How the worker ends the operation, if it does. -/
  ending : Option Ending
  stage : Stage := .entering none
  /-- What was written down since the last step. -/
  log : List String := []

def State.create (kind : Kind) (ending : Option Ending) : State :=
  { controller := Controller.create kind, ending }

/-- The worker lets go of all it has. -/
def State.drop (s : State) : State := { s with stage := .over, log := s.log ++ ["dropped"] }

/-- A control call.  A worker that was never started is let go at once. -/
def State.control (s : State) (c : Control) : State × Bool :=
  let (controller, ok, _) := s.controller.perform c
  let before := s.controller.seat
  let s := { s with controller }
  if before = .held ∧ controller.seat = .released then (s.drop, ok) else (s, ok)

/-- What the worker does once it may go on. -/
def State.entered (s : State) : State :=
  match s.ending with
  | none => { s with stage := .idle }
  | some ending =>
    let (gate, d) := s.controller.gate.finish ending.phase
    let notified := if d = .delivered then ["notified"] else []
    { s with
      controller := { s.controller with gate }
      log := s.log ++ notified ++ [d.name] }.drop

/-- Lets the worker ask whether it may go on. -/
def State.enter (s : State) (seen : Option Nat) : State :=
  let (gate, r) := s.controller.gate.poll seen
  let s := { s with controller := { s.controller with gate } }
  match r with
  | .inr seen => { s with stage := .entering (some seen) }
  | .inl true => { s with log := s.log ++ ["entered true"] }.entered
  | .inl false => { s with log := s.log ++ ["entered false"] }.drop

/-- Lets the worker go on until it has to wait. -/
def State.run (s : State) : State :=
  match s.controller.seat, s.stage with
  | .spawned, .entering seen => s.enter seen
  | .aborting, .entering _ | .aborting, .idle => s.drop
  | _, _ => s

/-- Takes what was written down. -/
def State.flush (s : State) : State × List String := ({ s with log := [] }, s.log)

end Switchboard.Trial
