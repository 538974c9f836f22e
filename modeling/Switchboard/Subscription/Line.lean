import Switchboard.Operation.Worker
import Switchboard.Subscription.Endpoint

/-!
# Switchboard.Subscription.Line

A stream operation at the endpoint that it shares with others.  The operation, the
removals that it has started and the endpoint take their steps in any order.

* `Line` — the operation, the endpoint, and the removals of its subscription;
* `act` — a step of the operation;
* `use` — a move of the endpoint, and what the operation learns of it;
* `withdraw` — the operation has a subscription removed;
* `Move`, `step`, `run` — one thing that happens, and many in a row.

The sink of the operation is `none`, and those of others are `some` sinks of theirs.
-/

namespace Switchboard

open GraphQL (Document)

variable {α σ τ : Type}

/-- The same registration with another sink. -/
def Registration.map (f : σ → τ) (q : Registration σ) : Registration τ :=
  ⟨q.id, q.document, f q.sink⟩

/-- The same move with other sinks. -/
def Endpoint.Move.map (f : σ → τ) : Endpoint.Move σ → Endpoint.Move τ
  | .register q accepting => .register (q.map f) accepting
  | .connected connection accepting => .connected connection accepting
  | .refused e => .refused e
  | .unregister id accepting => .unregister id accepting
  | .route generation m => .route generation m
  | .lost generation e => .lost generation e

/-- What a signal is to the operation whose sink is `none`. -/
def Signal.move? : Signal (Option σ) → Option (Operation.Move α)
  | .hand none m => some (.message m)
  | .release none => some .hangUp
  | .answer none r => some (.registered r)
  | _ => none

/-- A stream operation and the endpoint that it uses, with others whose sinks are `σ`. -/
structure Line (α σ : Type) where
  operation : Operation α
  endpoint : Endpoint (Option σ) := {}
  /-- The removals that were started and have not come to the endpoint. -/
  removals : List String := []
  /-- The removals for this operation that have come to the endpoint, in order. -/
  removed : List String := []

namespace Line

/-- An operation that is not started, at an endpoint that nobody has used. -/
def create (plan : Plan α) : Line α σ := { operation := .create plan }

/-! ## Parts of a step -/

/-- The operation takes a step, and the removals that it asks for are started. -/
def act (plan : Plan α) (l : Line α σ) (m : Operation.Move α) : Line α σ :=
  let (operation, demands) := l.operation.step plan m
  { l with operation, removals := l.removals ++ released demands }

/-- Something happens to the endpoint, and the operation learns what concerns it. -/
def use (plan : Plan α) (l : Line α σ) (m : Endpoint.Move (Option σ)) : Line α σ :=
  let (endpoint, signals) := l.endpoint.step m
  (signals.filterMap Signal.move?).foldl (act plan) { l with endpoint }

/-- A subscription is removed for the operation. -/
def withdraw (plan : Plan α) (l : Line α σ) (id : String) (accepting : Bool) : Line α σ :=
  { l with removed := l.removed ++ [id] }.use plan (.unregister id accepting)

/-! ## Histories -/

/-- One thing that happens. -/
inductive Move (σ : Type) where
  /-- Someone makes a control call on the operation. -/
  | control (c : Control)
  /-- A control call goes on by one step. -/
  | pursue (index : Nat)
  | work (messageFirst : Bool)
  /-- The worker registers its subscription, which gets a new id. -/
  | register (id : String) (document : Document) (accepting : Bool)
  /-- The worker has its subscription removed. -/
  | unregister (accepting : Bool)
  /-- A removal that was started comes to the endpoint. -/
  | remove (index : Nat) (accepting : Bool)
  /-- Something else happens to the endpoint. -/
  | elsewhere (m : Endpoint.Move σ)

/-- What one move leads to.  Who comes to a busy endpoint has to wait. -/
def step (plan : Plan α) (l : Line α σ) : Move σ → Line α σ
  | .control c => l.act plan (.control c)
  | .pursue i => l.act plan (.pursue i)
  | .work messageFirst => l.act plan (.work messageFirst)
  | .register id document accepting => match l.operation.stage with
    | .registering => l.use plan (.register ⟨id, document, none⟩ accepting)
    | _ => l
  | .unregister accepting => match l.operation.stage with
    | .unregistering id =>
      if l.endpoint.isBusy then l else (l.withdraw plan id accepting).act plan .unregistered
    | _ => l
  | .remove i accepting => match l.removals[i]? with
    | some id =>
      if l.endpoint.isBusy then l
      else { l with removals := l.removals.eraseIdx i }.withdraw plan id accepting
    | none => l
  | .elsewhere m => l.use plan (m.map some)

/-- What moves in a row lead to. -/
def run (plan : Plan α) (moves : List (Move σ)) (l : Line α σ) : Line α σ :=
  moves.foldl (step plan) l

end Line
end Switchboard
