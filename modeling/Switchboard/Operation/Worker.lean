import Switchboard.Operation.Basic

/-!
# Switchboard.Operation.Worker

The worker of an operation, one step at a time, and everything else that can happen
to an operation between two of its steps.

* `work?` — one step of the worker; `none` while it has to wait;
* `Move`, `step`, `run` — one thing that happens, and many in a row.
-/

namespace Switchboard.Operation

variable {α : Type}

/-! ## The worker -/

/-- Lets the worker go on at a stage. -/
def goto (op : Operation α) (s : Stage α) : Operation α := { op with stage := s }

/-- Whether the worker stops here when it is told to. -/
def stopsAt : Stage α → Bool
  | .arriving | .waiting _ | .sending => true
  | _ => false

/-- Looks whether the worker may go on.  The gate is let go after that. -/
def check (op : Operation α) (seen : Nat) : Operation α :=
  match op.gate.tryEnter with
  | (g, some true) => (op.withGate g).goto .admitted
  | (_, some false) => op.goto .finished
  | (_, none) => op.goto (.waiting seen)

/-- Asks for what the call needs, whatever has become of the phase meanwhile. -/
def embark (plan : Plan α) (op : Operation α) : Operation α × List Demand :=
  match plan.kind with
  | .single => (op.goto .sending, [.send])
  | .stream => (op.goto .registering, [.register])

/-- The event of an answer. -/
def answerEvent : Except ApiError α → Event α
  | .ok x => .response x
  | .error e => .failed e

/-- Delivers an answer; a worker with one has nothing else to do. -/
def report (plan : Plan α) (op : Operation α) (r : Except ApiError α) : Operation α :=
  match op.offer plan (answerEvent r) none with
  | (op, .delivered) => op
  | (op, _) => op.goto .finished

/-- Delivers the first pending event. -/
def flush (plan : Plan α) (op : Operation α) (seen : Nat) : Operation α :=
  match op.pending with
  | [] => op.goto (.deciding seen)
  | e :: rest => match { op with pending := rest }.offer plan e (some seen) with
    | (op, .delivered) => op
    | (_, .deferred) => op.goto (.deciding seen)
    | (_, .closed) => op.goto .closing

/-- Looks whether there is more to do. -/
def decideNext (op : Operation α) (seen : Nat) : Operation α :=
  if op.phase.isTerminal || (!op.listening && op.pending.isEmpty) then op.goto .closing
  else op.goto (.selecting seen)

/-- Takes a message, or learns that none will come. -/
def receive (plan : Plan α) (op : Operation α) (seen : Nat) : Operation α :=
  match op.inbox with
  | m :: rest =>
    { op with
      inbox := rest, pending := op.pending ++ [m.toEvent plan.decode], stage := .flushing seen }
  | [] => { op with listening := false, stage := .flushing seen }

/-- Whether there is a message to take, or the news that none will come. -/
def canReceive (op : Operation α) : Bool :=
  op.listening && (!op.inbox.isEmpty || !op.inboxOpen)

/-- Waits for a change or a message; where there are both, either may come first. -/
def select? (plan : Plan α) (messageFirst : Bool) (op : Operation α) (seen : Nat) :
    Option (Operation α) :=
  let changed := seen ≠ op.gate.version
  if op.canReceive ∧ (messageFirst ∨ !changed) then some (op.receive plan seen)
  else if changed then some (op.goto (.flushing op.gate.version))
  else none

/-- Gives up the subscription, if this operation still has to. -/
def close (op : Operation α) : Operation α × List Demand :=
  match op.slot with
  | some id => ({ op with slot := none, stage := .unregistering id }, [.unregister id])
  | none => (op.goto .finished, [])

/-- One step of a worker at a stage; `none` while it has to wait. -/
def workAt (plan : Plan α) (messageFirst : Bool) (op : Operation α) :
    Stage α → Option (Operation α × List Demand)
  | .arriving => some (op.goto (.checking op.gate.version), [])
  | .checking seen => some (op.check seen, [])
  | .admitted => some (op.embark plan)
  | .waiting seen =>
    if seen = op.gate.version then none else some (op.goto (.checking op.gate.version), [])
  | .answered r => some (op.report plan r, [])
  | .storing id => some ({ op with slot := some id, stage := .confirming id }, [])
  | .confirming id =>
    if op.phase.isTerminal then some (op.goto .closing, [])
    else some ({ op with pending := op.pending ++ [.established id], stage := .watching }, [])
  | .watching => some (op.goto (.flushing op.gate.version), [])
  | .flushing seen => some (op.flush plan seen, [])
  | .hearing next todo seen => some (op.hear todo seen next)
  | .deciding seen => some (op.decideNext seen, [])
  | .selecting seen => (op.select? plan messageFirst seen).map fun op => (op, [])
  | .closing => some op.close
  | .sending | .registering | .unregistering _ | .finished => none

/-- Whether the worker runs as a task. -/
def isSeated (op : Operation α) : Bool := op.controller.seat.isTaken

/-- One step of the worker; `none` while it has to wait. -/
def work? (plan : Plan α) (messageFirst : Bool) (op : Operation α) :
    Option (Operation α × List Demand) :=
  if !op.isSeated then none
  else if op.controller.seat = .aborting ∧ stopsAt op.stage then some (op.goto .finished, [])
  else op.workAt plan messageFirst op.stage

/-! ## What others do -/

/-- The answer to the request is there. -/
def answer (op : Operation α) (r : Except ApiError α) : Operation α :=
  match op.stage, op.controller.seat with
  | .sending, .spawned => op.goto (.answered r)
  | _, _ => op

/-- The endpoint has registered the subscription, or failed to. -/
def registered (op : Operation α) (r : Except ApiError String) : Operation α :=
  match op.stage with
  | .registering => match r with
    | .ok id => op.goto (.storing id)
    | .error e =>
      { op with listening := false, pending := op.pending ++ [.failed e], stage := .watching }
  | _ => op

/-- The endpoint has removed the subscription. -/
def unregistered (op : Operation α) : Operation α :=
  match op.stage with
  | .unregistering _ => op.goto .finished
  | _ => op

/-- A message for the subscription comes. -/
def message (op : Operation α) (m : StreamMessage) : Operation α :=
  if op.inboxOpen then { op with inbox := op.inbox ++ [m] } else op

/-- No more messages can come. -/
def hangUp (op : Operation α) : Operation α := { op with inboxOpen := false }

/-- Whether the worker waits for a change of the phase. -/
def awaitsChange (op : Operation α) : Bool :=
  match op.stage with
  | .waiting _ | .selecting _ => true
  | _ => false

/-- Whether the worker waits for messages. -/
def isSelecting (op : Operation α) : Bool :=
  match op.stage with
  | .selecting _ => true
  | _ => false

/-! ## Histories -/

/-- One thing that happens to an operation. -/
inductive Move (α : Type) where
  /-- Someone makes a control call; it waits while the listener hears an event. -/
  | control (c : Control)
  /-- A control call goes on by one step. -/
  | pursue (index : Nat)
  | work (messageFirst : Bool)
  | answer (r : Except ApiError α)
  | registered (r : Except ApiError String)
  | unregistered
  | message (m : StreamMessage)
  | hangUp
  deriving Inhabited

/-- Whether a step of a control call has to wait for the gate, because the listener
holds it.  Only those wait that look at the phase. -/
def waitsForGate (op : Operation α) (next : Option Pursuit) : Bool :=
  op.isHearing && next == some .recheck

/-- What one move leads to, and what the operation asks for. -/
def step (plan : Plan α) (op : Operation α) : Move α → Operation α × List Demand
  | .control c =>
    if op.isHearing then (op, []) else ({ op with controller := (op.controller.call c).1 }, [])
  | .pursue i =>
    if op.waitsForGate op.controller.pursuits[i]? then (op, [])
    else
      let (c, hook) := op.controller.advance i
      op.follow c hook
  | .work messageFirst => (op.work? plan messageFirst).getD (op, [])
  | .answer r => (op.answer r, [])
  | .registered r => (op.registered r, [])
  | .unregistered => (op.unregistered, [])
  | .message m => (op.message m, [])
  | .hangUp => (op.hangUp, [])

/-- What moves in a row lead to, and everything the operation asks for. -/
def run (plan : Plan α) : List (Move α) → Operation α → Operation α × List Demand
  | [], op => (op, [])
  | m :: rest, op =>
    let (op, demands) := op.step plan m
    let (op, more) := run plan rest op
    (op, demands ++ more)

end Switchboard.Operation
