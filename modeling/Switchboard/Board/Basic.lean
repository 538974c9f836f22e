import Switchboard.Dispatch.Launch
import Switchboard.Subscription.Credentials
import Switchboard.Subscription.Endpoint

/-!
# Switchboard.Board.Basic

A whole switchboard at work: the APIs with their clients and endpoints, the calls
that were placed, and what the servers see.

* `Desk` — one API, and who may use its endpoint;
* `Wire` — one connection;
* `Exchange` — how the servers behave when someone connects;
* `Task` — someone with work to do; tasks take turns, in the order in which they
  became ready;
* `Board` — everything together.

An endpoint serves one task at a time.  The others stand in a queue, and who leaves
hands it to the next.
-/

namespace Switchboard

open GraphQL (ClientMessage ServerMessage ConnectionError Document)

/-- Someone with work to do. -/
inductive Task where
  /-- The worker of a call. -/
  | worker (call : Nat)
  /-- The removal of a subscription that nobody waits for. -/
  | removal (n : Nat)
  /-- The registration of a subscription that belongs to no call. -/
  | registration (n : Nat)
  /-- Who reads what comes over a connection. -/
  | reader (wire : Nat)
  deriving DecidableEq, Repr, Inhabited

/-- Where the messages of a subscription go. -/
inductive Sink where
  | call (n : Nat)
  | registration (n : Nat)
  deriving DecidableEq, Repr, Inhabited

/-- One API. -/
structure Desk where
  entry : ClientEntry
  endpoint : Endpoint Sink := {}
  /-- The task that uses the endpoint. -/
  holder : Option Task := none
  /-- The tasks that wait for it, the first one first. -/
  queue : List Task := []

/-- One connection. -/
structure Wire where
  desk : String
  generation : Nat
  /-- What the server said and the reader has not taken. -/
  incoming : List (Except ConnectionError ServerMessage) := []
  /-- Whether the server may say more. -/
  speaking : Bool := true
  /-- Whether the reader takes more. -/
  listening : Bool := true
  /-- What the client said since the server looked last. -/
  outgoing : List ClientMessage := []
  /-- Whether the server takes what the client says. -/
  accepting : Bool := true
  /-- Whether the client has not let go. -/
  held : Bool := true
  /-- Whether the server knows that the client let go. -/
  parted : Bool := false

/-- A try to open a connection. -/
structure Attempt where
  url : String
  payload : Option Json

/-- How the servers behave when someone connects. -/
structure Exchange where
  /-- Whether connecting takes until further notice. -/
  holding : Bool := false
  /-- Why no connection comes about, if none does. -/
  refusal : Option ConnectionError := none
  /-- The tasks that wait for further notice, the first one first. -/
  waiting : List Task := []
  /-- The tries since someone looked last, in order. -/
  attempts : List Attempt := []

/-- The removal of a subscription. -/
structure Removal where
  desk : String
  id : String
  /-- Whether there was something to remove. -/
  result : Option Bool := none

/-- The registration of a subscription that belongs to no call. -/
structure Extra where
  desk : String
  document : Document
  result : Option (Except ApiError String) := none
  /-- The messages since someone looked last, in order. -/
  received : List StreamMessage := []
  /-- Whether someone takes the messages. -/
  taking : Bool := true

/-- An operation with what belongs to it. -/
structure Placed where
  desk : String
  request : CallRequest
  listener : Listener
  operation : Operation Answer

def Placed.plan (p : Placed) : Plan Answer := p.request.plan p.listener

/-- What has become of a call. -/
structure CallRecord where
  /-- What the listener heard from the call itself. -/
  early : List (Notice Answer) := []
  placed : Option Placed := none
  /-- How much of what the listener heard was looked at. -/
  seen : Nat := 0

/-- What the listener has heard, in order. -/
def CallRecord.notices (r : CallRecord) : List (Notice Answer) :=
  r.early ++ (r.placed.map (·.operation.notices)).getD []

structure Board where
  network : Network
  desks : Keyed Desk := []
  wires : List Wire := []
  exchange : Exchange := {}
  calls : List CallRecord := []
  removals : List Removal := []
  extras : List Extra := []
  /-- The tasks that are ready, in the order of their turns. -/
  ready : List Task := []
  /-- How many ids were given to subscriptions. -/
  issued : Nat := 0
  /-- The moment of the next request. -/
  now : Http.Moment := 0

namespace Board

/-- A board with clients, and with endpoints that have nothing to do. -/
def ofClients (network : Network) (clients : Clients) : Board where
  network
  desks := clients.entries.map fun e => (e.1, { entry := e.2 })

def clients (b : Board) : Clients := ⟨b.desks.map fun d => (d.1, d.2.entry)⟩

/-! ## Parts -/

def desk? (b : Board) (name : String) : Option Desk := Keyed.get? name b.desks

def setDesk (b : Board) (name : String) (d : Desk) : Board :=
  { b with desks := Keyed.set name d b.desks }

def placed? (b : Board) (n : Nat) : Option Placed := b.calls[n]?.bind (·.placed)

def modifyPlaced (b : Board) (n : Nat) (f : Placed → Placed) : Board :=
  { b with calls := b.calls.modify n fun r => { r with placed := r.placed.map f } }

def modifyOperation (b : Board) (n : Nat) (f : Operation Answer → Operation Answer) : Board :=
  b.modifyPlaced n fun p => { p with operation := f p.operation }

def modifyWire (b : Board) (n : Nat) (f : Wire → Wire) : Board :=
  { b with wires := b.wires.modify n f }

def modifyExtra (b : Board) (n : Nat) (f : Extra → Extra) : Board :=
  { b with extras := b.extras.modify n f }

/-! ## Tasks -/

/-- Makes a task ready, unless it is. -/
def wake (b : Board) (t : Task) : Board :=
  if b.ready.contains t then b else { b with ready := b.ready ++ [t] }

def wakeIf (b : Board) (condition : Bool) (t : Task) : Board :=
  if condition then b.wake t else b

/-- The text of a number with as many places as a pattern has. -/
def padded (width n : Nat) : String :=
  let digits := Nat.toDigits 16 n
  String.ofList (List.replicate (width - digits.length) '0' ++ digits)

/-- The id that is given out as the n-th one. -/
def idOf (n : Nat) : String := s!"00000000-0000-4000-8000-{padded 12 n}"

/-- Starts the removal of a subscription that nobody waits for. -/
def remove (b : Board) (desk id : String) : Board :=
  let b' := { b with removals := b.removals ++ [({ desk, id } : Removal)] }
  b'.wake (.removal b.removals.length)

/-- Starts what an operation asks for, as far as its worker does not wait for it. -/
def meet (desk : String) (b : Board) : Demand → Board
  | .release id => b.remove desk id
  | .send | .register | .unregister _ => b

/-! ## Signals -/

/-- Hands something to the operation of a call, whose worker may wait for it. -/
def deliver (b : Board) (n : Nat) (f : Operation Answer → Operation Answer) : Board :=
  let waits := match b.placed? n with
    | some p => p.operation.isSelecting && p.operation.listening
    | none => false
  (b.modifyOperation n f).wakeIf waits (.worker n)

/-- A client lets a connection go, and its reader stops wherever it is. -/
def hangUp (b : Board) (n : Nat) : Board :=
  { b.modifyWire n fun w => { w with held := false, listening := false } with
    ready := b.ready.filter (· ≠ .reader n)
    desks := b.desks.map fun d =>
      (d.1, { d.2 with queue := d.2.queue.filter (· ≠ .reader n) }) }

/-- Does what an endpoint signals. -/
def carry (b : Board) : Signal Sink → Board
  | .post n m => b.modifyWire n fun w =>
    if w.accepting then { w with outgoing := w.outgoing ++ [m] } else w
  | .hand (.call n) m => b.deliver n (·.message m)
  | .hand (.registration n) m => b.modifyExtra n fun x =>
    if x.taking then { x with received := x.received ++ [m] } else x
  | .release (.call n) => b.deliver n (·.hangUp)
  | .release (.registration _) => b
  | .hangUp n => b.hangUp n
  | .answer (.call n) r => b.modifyOperation n (·.registered r)
  | .answer (.registration n) r => b.modifyExtra n fun x => { x with result := some r }

def carryAll (b : Board) (signals : List (Signal Sink)) : Board := signals.foldl carry b

end Board
end Switchboard
