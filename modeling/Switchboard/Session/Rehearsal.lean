import Switchboard.Http.Header
import Switchboard.Session.Basic
import Switchboard.Session.Target

/-!
# Switchboard.Session.Rehearsal

A session from its beginning, against a server that follows a script.

* `Settings`, `upgrade` — how the socket is opened;
* `Cue`, `rehearse` — what the server does, and how the opening goes;
* `send`, `next`, `receive` — both sides afterwards.

Time passes only where the script says nothing more: then whoever waits gives up.
-/

namespace Switchboard.Session

open GraphQL (ClientMessage ServerMessage ConnectionError)

/-- How a socket is opened.  Times are in milliseconds. -/
structure Settings where
  connectTimeout : Nat := 30000
  ackTimeout : Nat := 10000
  /-- The protocol that both sides agree on. -/
  subprotocol : String := GraphQL.subprotocol
  deriving DecidableEq, Repr, Inhabited

/-- What the server makes of the upgrade of a socket. -/
inductive Upgrade where
  | confirm
  /-- It confirms the upgrade, but not the protocol. -/
  | withoutProtocol
  | silent
  | drop
  deriving DecidableEq, Repr, Inhabited

/-- Opens the socket to the server, or to a target where no server is. -/
def upgrade (settings : Settings) (elsewhere : Option String) (u : Upgrade) :
    Except ConnectionError Unit :=
  if elsewhere.any (!isTarget ·) then .error (.invalidUrl "")
  else if !Http.isValue settings.subprotocol then .error (.handshake "")
  else if elsewhere.isSome then .error (.webSocket "")
  else match u with
    | .confirm => .ok ()
    | .silent => .error .timeout
    | .withoutProtocol | .drop => .error (.webSocket "")

/-- One thing in the script of a server. -/
inductive Cue where
  /-- Take one message from the client. -/
  | receive
  | send (a : Arrival)
  /-- Do nothing more. -/
  | wait
  deriving Inhabited

/-- What a server gets from the client. -/
inductive Receipt where
  | message (m : ClientMessage)
  /-- The client has closed the socket. -/
  | closed
  /-- The client is gone, and has not closed the socket. -/
  | failed
  deriving Inhabited

structure Rehearsal where
  session : Session
  /-- How the opening ended, if it has. -/
  opened : Option (Except ConnectionError Unit) := none
  /-- How many of the messages the server has taken. -/
  taken : Nat := 0
  /-- What the server got, in order. -/
  receipts : List Receipt := []

namespace Rehearsal

/-- The client has sent its first message. -/
def create (payload : Option Json) : Rehearsal where
  session := { queue := [.init payload] }

/-- All that is said is written. -/
def flush (s : Session) : Session :=
  (List.replicate (s.queue.length + 1) ()).foldl (fun s _ => s.write) s

/-- Whether the client has given up. -/
def isOver (r : Rehearsal) : Bool := r.opened matches some (.error _)

/-- What the server gets next. -/
def receive (r : Rehearsal) : Rehearsal × Receipt :=
  let s := flush r.session
  let r := { r with session := s }
  match s.written[r.taken]? with
  | some m => ({ r with taken := r.taken + 1 }, .message m)
  | none => (r, if s.closed && !r.isOver then .closed else .failed)

/-- The client gives up waiting for the acknowledgement. -/
def giveUp (r : Rehearsal) : Rehearsal :=
  { r with opened := r.opened <|> some (.error .timeout) }

/-- Something arrives at the client. -/
def arrive (r : Rehearsal) (a : Arrival) : Rehearsal :=
  match r.opened with
  | some (.ok ()) => { r with session := r.session.arrive a }
  | some (.error _) => r
  | none => match a.verdict with
    | .ignore => r
    | .reply m => { r with session := (r.session.say m).1 }
    | .accept => { r with opened := some (.ok ()) }
    | .fail e => { r with opened := some (.error e) }

/-- The server does what its script says. -/
def rehearse : List Cue → Rehearsal → Rehearsal
  | [], r => r.giveUp
  | .wait :: _, r => r.giveUp
  | .send a :: rest, r => rehearse rest (r.arrive a)
  | .receive :: rest, r =>
    let (r, receipt) := r.receive
    let r := if receipt matches .message _ then r else r.giveUp
    rehearse rest { r with receipts := r.receipts ++ [receipt] }

/-- The client says something, and the server gets it. -/
def send (r : Rehearsal) (m : ClientMessage) :
    Rehearsal × Except ConnectionError Unit × Receipt :=
  let (s, sent) := r.session.say m
  let (r, receipt) := { r with session := s }.receive
  (r, sent, receipt)

/-- What the client gets next; nothing at the end. -/
def next (r : Rehearsal) : Rehearsal × Option (Except ConnectionError ServerMessage) :=
  match r.session.take? with
  | some (m, s) => ({ r with session := s }, some m)
  | none => (r, none)

/-- The client lets the session go. -/
def letGo (r : Rehearsal) : Rehearsal := { r with session := r.session.letGo }

end Rehearsal
end Switchboard.Session
