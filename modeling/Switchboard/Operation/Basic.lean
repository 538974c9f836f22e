import Switchboard.Operation.Controller
import Switchboard.Subscription.Message

/-!
# Switchboard.Operation.Basic

One call on its way: the controller, the worker, and what the listener has heard.

* `Plan` — what is fixed from the start;
* `Stage` — where the worker is;
* `Operation` — everything that changes;
* `perform` — a whole control call;
* `offer` — hands an event to the listener, if the gate lets it through;
* `hear` — what the listener does while it hears one.

A listener may control its operation while it hears an event.  Until it is done the
gate is held for it: calls from elsewhere wait.
-/

namespace Switchboard

/-- What is fixed about an operation from the start. -/
structure Plan (α : Type) where
  kind : Kind
  /-- Reads the results of a subscription. -/
  decode : Json → Except ApiError α
  /-- The control calls that the listener makes while it hears its n-th event,
  counted from 1. -/
  reaction : Nat → Option (List Control) := fun _ => none

/-- Where a worker is.  `seen` is the last change of the phase that it knows of. -/
inductive Stage (α : Type) where
  | arriving
  /-- It looks whether it may go on. -/
  | checking (seen : Nat)
  /-- It waits for a change. -/
  | waiting (seen : Nat)
  /-- It may go on, and is about to ask for what the call needs. -/
  | admitted
  /-- The request is out. -/
  | sending
  | answered (result : Except ApiError α)
  /-- The endpoint registers the subscription. -/
  | registering
  /-- The subscription is registered, and the worker keeps its id. -/
  | storing (id : String)
  /-- It looks whether the operation is over already. -/
  | confirming (id : String)
  /-- It starts to watch the phase. -/
  | watching
  /-- It delivers what is pending. -/
  | flushing (seen : Nat)
  /-- The listener hears an event.  It has to finish a control call, if there is one,
  and to make others after it; then the worker goes on to deliver, if it still
  watches the phase. -/
  | hearing (next : Option Pursuit) (todo : List Control) (seen : Option Nat)
  /-- It looks whether there is more to do. -/
  | deciding (seen : Nat)
  /-- It waits for a change or a message. -/
  | selecting (seen : Nat)
  /-- It gives up the subscription, if there is one. -/
  | closing
  /-- The endpoint removes the subscription. -/
  | unregistering (id : String)
  | finished
  deriving Inhabited

/-- What a listener heard, and if it acted on it, whether each control call that it
made was valid. -/
structure Notice (α : Type) where
  event : Event α
  acted : Option (List Bool)
  deriving Inhabited

structure Operation (α : Type) where
  controller : Controller
  stage : Stage α := .arriving
  /-- The id of the subscription, as long as this operation has to give it up. -/
  slot : Option String := none
  /-- The messages for the subscription that the worker has not taken. -/
  inbox : List StreamMessage := []
  /-- Whether more messages can come. -/
  inboxOpen : Bool := true
  /-- Whether the worker still takes messages. -/
  listening : Bool := true
  /-- The events that are not delivered yet. -/
  pending : List (Event α) := []
  /-- What the listener has heard, in order. -/
  notices : List (Notice α) := []

/-- What an operation asks of others. -/
inductive Demand where
  /-- Send the request of the call. -/
  | send
  /-- Register the subscription. -/
  | register
  /-- Remove the subscription; the worker waits for it. -/
  | unregister (id : String)
  /-- Remove the subscription, with nobody waiting. -/
  | release (id : String)
  deriving DecidableEq, Repr, Inhabited

/-- The subscription whose removal is started with nobody waiting. -/
def Demand.released? : Demand → Option String
  | .release id => some id
  | .send | .register | .unregister _ => none

/-- The subscriptions whose removal is started with nobody waiting. -/
def released (demands : List Demand) : List String := demands.filterMap Demand.released?

namespace Operation

variable {α : Type}

/-- An operation that is not started; a stream has a hook that gives up its
subscription. -/
def create (plan : Plan α) : Operation α :=
  let c := Controller.create plan.kind
  { controller :=
      if plan.kind = .stream then { c with gate := c.gate.onCancel () } else c }

def gate (op : Operation α) : Gate Unit Unit := op.controller.gate

def phase (op : Operation α) : Phase := op.gate.phase

def withGate (op : Operation α) (g : Gate Unit Unit) : Operation α :=
  { op with controller := { op.controller with gate := g } }

/-- The events that the listener has heard, in order. -/
def heard (op : Operation α) : List (Event α) := op.notices.map (·.event)

/-! ## Control -/

/-- Runs the hook of a cancellation: gives up the subscription. -/
def runHook (op : Operation α) : Operation α × List Demand :=
  ({ op with slot := none }, op.slot.toList.map .release)

/-- Goes on after a step of the controller. -/
def follow (op : Operation α) (c : Controller) (hook : Bool) : Operation α × List Demand :=
  let op := { op with controller := c }
  if hook then op.runHook else (op, [])

/-- A whole control call: whether it was valid. -/
def perform (op : Operation α) (control : Control) : Operation α × Bool × List Demand :=
  let (c, ok, hook) := op.controller.perform control
  let (op, demands) := op.follow c hook
  (op, ok, demands)

/-! ## The listener -/

/-- Whether the gate is held, while the listener hears an event. -/
def isHearing (op : Operation α) : Bool :=
  match op.stage with
  | .hearing .. => true
  | _ => false

/-- The listener begins to hear an event. -/
def notify (plan : Plan α) (op : Operation α) (e : Event α) (seen : Option Nat) : Operation α :=
  let controls := plan.reaction (op.notices.length + 1)
  { op with
    notices := op.notices ++ [⟨e, controls.map fun _ => []⟩]
    stage := .hearing none (controls.getD []) seen }

/-- Hands an event to the listener if the gate lets it through. -/
def offer (plan : Plan α) (op : Operation α) (e : Event α) (seen : Option Nat) :
    Operation α × Delivery :=
  match e.ending? with
  | some ending => match op.gate.finish ending.phase with
    | (g, .delivered) => ((op.withGate g).notify plan e seen, .delivered)
    | (_, d) => (op, d)
  | none => match op.gate.deliver with
    | .delivered => (op.notify plan e seen, .delivered)
    | d => (op, d)

/-- Writes down whether a control call was valid that the listener made. -/
def Notice.add (n : Notice α) (ok : Bool) : Notice α :=
  { n with acted := n.acted.map (· ++ [ok]) }

/-- One step of what the listener does while it hears an event: more of a control
call, the next call, or the end. -/
def hear (op : Operation α) (todo : List Control) (seen : Option Nat) :
    Option Pursuit → Operation α × List Demand
  | some p =>
    let (c, next, hook) := op.controller.pursue p
    { op with stage := .hearing next todo seen }.follow c hook
  | none => match todo with
    | control :: rest =>
      let (controller, ok, next) := op.controller.enact control
      ({ op with
        controller
        notices := op.notices.modify (op.notices.length - 1) (Notice.add · ok)
        stage := .hearing next rest seen }, [])
    | [] => ({ op with stage := seen.elim .finished .flushing }, [])

end Operation
end Switchboard
