import Switchboard.GraphQL.Message
import Switchboard.Keyed
import Switchboard.Subscription.Message

/-!
# Switchboard.Subscription.Endpoint

The subscriptions of one API, all over one connection.  The first registration has
the connection opened, what comes over it goes to registrations by their ids, and
when the last registration goes away the connection is closed.

* `Endpoint` — the registrations and the connection;
* `register`, `opened`, `refused`, `unregister` — how registrations come and go;
* `route`, `lost` — what comes over a connection, and its end;
* `Move`, `step`, `run` — one thing that happens, and many in a row.

A registration names the *sink* that its messages go to, of type `σ`.  What others
have to do comes out as signals, in order.  While a connection is being opened the
endpoint is busy, and nothing else happens to it.
-/

namespace Switchboard

open GraphQL (ClientMessage ServerMessage Document FieldError)

/-- How an endpoint is connected. -/
inductive LinkStatus where
  | disconnected | connecting | connected
  deriving DecidableEq, Repr, Inhabited

def LinkStatus.name : LinkStatus → String
  | disconnected => "Disconnected"
  | connecting => "Connecting"
  | connected => "Connected"

/-- The connection that an endpoint uses. -/
structure Link where
  connection : Nat
  /-- Which of the endpoint's connections it is, counted from 1. -/
  generation : Nat
  deriving DecidableEq, Repr, Inhabited

/-- A subscription to register. -/
structure Registration (σ : Type) where
  id : String
  document : Document
  sink : σ

/-- What others have to do. -/
inductive Signal (σ : Type) where
  /-- Queue a message for the server. -/
  | post (connection : Nat) (m : ClientMessage)
  /-- Hand a message to a sink. -/
  | hand (sink : σ) (m : StreamMessage)
  /-- Tell a sink that nothing more comes. -/
  | release (sink : σ)
  /-- Let a connection go. -/
  | hangUp (connection : Nat)
  /-- Tell who registered a sink what has become of it. -/
  | answer (sink : σ) (r : Except ApiError String)

structure Endpoint (σ : Type) where
  status : LinkStatus := .disconnected
  link : Option Link := none
  /-- The sinks by the ids of their subscriptions. -/
  table : Keyed σ := []
  /-- The generation of the last connection. -/
  generation : Nat := 0
  /-- How many connections were opened. -/
  opened : Nat := 0
  /-- The registration that a connection is being opened for. -/
  opening : Option (Registration σ) := none

namespace Endpoint

variable {σ : Type}

/-- Whether a connection is being opened. -/
def isBusy (ep : Endpoint σ) : Bool := ep.opening.isSome

/-- How many subscriptions there are. -/
def size (ep : Endpoint σ) : Nat := ep.table.length

def has (ep : Endpoint σ) (id : String) : Bool := Keyed.has id ep.table

/-- Whether messages of a generation are the current ones. -/
def isCurrent (ep : Endpoint σ) (generation : Nat) : Bool :=
  ep.link.map (·.generation) == some generation

/-! ## The connection -/

/-- Lets the connection go. -/
def hangUp (ep : Endpoint σ) : Endpoint σ × List (Signal σ) :=
  ({ ep with link := none, status := .disconnected },
    ep.link.toList.map fun link => .hangUp link.connection)

/-- Lets the connection go if nothing is registered. -/
def hangUpIfIdle (ep : Endpoint σ) : Endpoint σ × List (Signal σ) :=
  if ep.table.isEmpty then ep.hangUp else (ep, [])

/-! ## Registrations -/

/-- What a caller learns whose connection takes no messages. -/
def closedError : ApiError := .connection "connection closed"

/-- Subscribes over the link, as long as the server takes messages. -/
def subscribe (ep : Endpoint σ) (r : Registration σ) (link : Link) (accepting : Bool) :
    Endpoint σ × List (Signal σ) :=
  if accepting then
    ({ ep with table := Keyed.set r.id r.sink ep.table },
      [.post link.connection (.subscribe r.id r.document), .answer r.sink (.ok r.id)])
  else (ep, [.release r.sink, .answer r.sink (.error closedError)])

/-- Registers a subscription.  Without a connection it has to wait for one. -/
def register (ep : Endpoint σ) (r : Registration σ) (accepting : Bool) :
    Endpoint σ × List (Signal σ) :=
  match ep.link with
  | some link => ep.subscribe r link accepting
  | none => ({ ep with status := .connecting, opening := some r }, [])

/-- A connection is open, and the registration that waited for it goes on. -/
def connected (ep : Endpoint σ) (connection : Nat) (accepting : Bool) :
    Endpoint σ × List (Signal σ) :=
  match ep.opening with
  | none => (ep, [])
  | some r =>
    let link : Link := ⟨connection, ep.generation + 1⟩
    let ep := { ep with
      status := .connected, link := some link, opening := none
      generation := ep.generation + 1, opened := ep.opened + 1 }
    ep.subscribe r link accepting

/-- There is no connection for the registration that waited for one. -/
def refused (ep : Endpoint σ) (e : ApiError) : Endpoint σ × List (Signal σ) :=
  match ep.opening with
  | none => (ep, [])
  | some r =>
    ({ ep with status := .disconnected, opening := none },
      [.release r.sink, .answer r.sink (.error e)])

/-- What tells the server that a subscription is over, as long as it takes messages. -/
def completion (ep : Endpoint σ) (id : String) (accepting : Bool) : List (Signal σ) :=
  if accepting then ep.link.toList.map fun link => .post link.connection (.complete id) else []

/-- Removes a registration, if there is one, and tells the server. -/
def unregister (ep : Endpoint σ) (id : String) (accepting : Bool) :
    Endpoint σ × List (Signal σ) :=
  match Keyed.get? id ep.table with
  | none => (ep, [])
  | some sink =>
    let (ep', signals) := { ep with table := Keyed.erase id ep.table }.hangUpIfIdle
    (ep', .release sink :: ep.completion id accepting ++ signals)

/-! ## What comes over a connection -/

/-- Removes a registration with a last message to its sink. -/
def conclude (ep : Endpoint σ) (id : String) (m : StreamMessage) :
    Endpoint σ × List (Signal σ) :=
  let signals := match Keyed.get? id ep.table with
    | some sink => [.hand sink m, .release sink]
    | none => []
  let (ep, more) := { ep with table := Keyed.erase id ep.table }.hangUpIfIdle
  (ep, signals ++ more)

/-- A message comes over the connection of a generation.  Those of an earlier one are
of no use. -/
def route (ep : Endpoint σ) (generation : Nat) (m : ServerMessage) :
    Endpoint σ × List (Signal σ) :=
  if !ep.isCurrent generation then (ep, [])
  else match m with
    | .next id payload => (ep, (Keyed.get? id ep.table).toList.map fun s => .hand s (.next payload))
    | .error id errors => ep.conclude id (.errors (errors.map FieldError.ofAny))
    | .complete id => ep.conclude id .complete
    | .ack _ | .ping _ | .pong _ => (ep, [])

/-- The connection of a generation is gone, and all subscriptions with it. -/
def lost (ep : Endpoint σ) (generation : Nat) (e : ApiError) : Endpoint σ × List (Signal σ) :=
  if !ep.isCurrent generation then (ep, [])
  else
    let (ep', signals) := ep.hangUp
    ({ ep' with table := [] },
      signals ++ ep.table.flatMap fun entry => [.hand entry.2 (.lost e), .release entry.2])

/-! ## Histories -/

/-- One thing that happens to an endpoint. -/
inductive Move (σ : Type) where
  | register (r : Registration σ) (accepting : Bool)
  | connected (connection : Nat) (accepting : Bool)
  | refused (e : ApiError)
  | unregister (id : String) (accepting : Bool)
  | route (generation : Nat) (m : ServerMessage)
  | lost (generation : Nat) (e : ApiError)

/-- Whether a move ends the opening of a connection. -/
def Move.opens : Move σ → Bool
  | connected _ _ | refused _ => true
  | _ => false

/-- What one move leads to.  A busy endpoint waits for its connection, and one that
waits for none has no use for it. -/
def step (ep : Endpoint σ) (m : Move σ) : Endpoint σ × List (Signal σ) :=
  if ep.isBusy ≠ m.opens then (ep, [])
  else match m with
    | .register r accepting => ep.register r accepting
    | .connected connection accepting => ep.connected connection accepting
    | .refused e => ep.refused e
    | .unregister id accepting => ep.unregister id accepting
    | .route generation m => ep.route generation m
    | .lost generation e => ep.lost generation e

/-- What moves in a row lead to, and all signals that come out. -/
def run : List (Move σ) → Endpoint σ → Endpoint σ × List (Signal σ)
  | [], ep => (ep, [])
  | m :: rest, ep =>
    let (ep, signals) := ep.step m
    let (ep, more) := run rest ep
    (ep, signals ++ more)

end Endpoint
end Switchboard
