import Switchboard.Board.Action

/-!
# Switchboard.Board.Look

What can be seen of a board from outside, and what has happened since the last look.

Subscriptions go by labels here, `s0`, `s1` and so on, in the order in which servers
first saw them.  An id that no server saw, and a label that none has, stand for
themselves.
-/

namespace Switchboard

open GraphQL (ClientMessage ServerMessage)

/-- The ids of subscriptions, in the order in which servers first saw them. -/
abbrev Labels := List String

namespace Labels

/-- The label of an id. -/
def label (labels : Labels) (id : String) : String :=
  match labels.idxOf? id with
  | some n => s!"s{n}"
  | none => id

/-- The id of a label. -/
def id (labels : Labels) (label : String) : String :=
  (labels.zipIdx.find? fun x => s!"s{x.2}" == label).elim label (·.1)

end Labels

/-- The subscription that a message of a client opens. -/
def GraphQL.ClientMessage.opened? : ClientMessage → Option String
  | subscribe id _ => some id
  | _ => none

def GraphQL.ClientMessage.mapId (f : String → String) : ClientMessage → ClientMessage
  | subscribe id d => subscribe (f id) d
  | complete id => complete (f id)
  | m => m

def GraphQL.ServerMessage.mapId (f : String → String) : ServerMessage → ServerMessage
  | next id payload => next (f id) payload
  | error id es => error (f id) es
  | complete id => complete (f id)
  | m => m

def Event.mapId (f : String → String) : Event α → Event α
  | established id => established (f id)
  | e => e

/-- What a server sees of a connection. -/
structure WireLook where
  said : List ClientMessage
  /-- Whether the client let go. -/
  parted : Bool

/-- What can be seen of an endpoint. -/
structure DeskLook where
  status : LinkStatus
  connections : Nat
  /-- How many subscriptions there are, unless the endpoint is in use. -/
  subscriptions : Option Nat

structure CallLook where
  /-- What the listener heard, in order. -/
  heard : List (Notice Answer)
  /-- The phase of the operation, if there is one. -/
  phase : Option Phase
  /-- The subscription that belongs to it. -/
  subscription : Option String

structure ExtraLook where
  received : List StreamMessage
  /-- What has become of the registration. -/
  result : Option (Except ApiError String)

structure Look where
  attempts : List Attempt
  wires : List WireLook
  calls : List CallLook
  extras : List ExtraLook
  desks : Keyed DeskLook

namespace Board

/-- The messages of a client that its server can see. -/
def Wire.visible (w : Wire) : List ClientMessage := if w.accepting then w.outgoing else []

/-- The labels after a look at what clients said. -/
def relabel (b : Board) (labels : Labels) : Labels :=
  labels ++ b.wires.flatMap fun w => (Wire.visible w).filterMap (·.opened?)

def lookAtWire (labels : Labels) (w : Wire) : WireLook where
  said := (Wire.visible w).map (·.mapId labels.label)
  parted := w.accepting && !w.held && !w.parted

def lookAtDesk (d : Desk) : DeskLook where
  status := d.endpoint.status
  connections := d.endpoint.opened
  subscriptions := if d.holder.isSome then none else some d.endpoint.size

def lookAtCall (labels : Labels) (r : CallRecord) : CallLook where
  heard := (r.notices.drop r.seen).map fun n => { n with event := n.event.mapId labels.label }
  phase := r.placed.map (·.operation.phase)
  subscription := r.placed.bind fun p => p.operation.slot.map labels.label

def lookAtExtra (labels : Labels) (x : Extra) : ExtraLook where
  received := x.received
  result := x.result.map fun r => r.map labels.label

/-- What can be seen now. -/
def look (b : Board) (labels : Labels) : Look where
  attempts := b.exchange.attempts
  wires := b.wires.map (lookAtWire labels)
  calls := b.calls.map (lookAtCall labels)
  extras := b.extras.map (lookAtExtra labels)
  desks := b.desks.map fun d => (d.1, lookAtDesk d.2)

/-- The board when all that can be seen was seen. -/
def seen (b : Board) : Board :=
  { b with
    exchange := { b.exchange with attempts := [] }
    wires := b.wires.map fun w => { w with outgoing := [], parted := w.parted || !w.held }
    calls := b.calls.map fun r => { r with seen := r.notices.length }
    extras := b.extras.map fun x => { x with received := [] } }

end Board
end Switchboard
