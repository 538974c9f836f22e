import Switchboard.Session.Opening

/-!
# Switchboard.Session.Basic

A session that is open.  What the client says goes through a queue to a writer; a
reader keeps what arrives for the client, and answers pings by way of the same queue.

* `say`, `letGo`, `take?`, `turnAway` — the client;
* `arrive` — the reader;
* `write`, `fail` — the writer;
* `Move`, `step`, `run` — one thing that happens, and many in a row.

As long as what is written goes through, the writer closes the socket only when the
client has let go and the queue is empty, so nothing that was said is lost.
-/

namespace Switchboard

open GraphQL (ClientMessage ServerMessage ConnectionError)

structure Session where
  /-- What was said and is not written yet. -/
  queue : List ClientMessage := []
  /-- Whether the client has not let go. -/
  held : Bool := true
  /-- What was written, in order. -/
  written : List ClientMessage := []
  /-- Whether the writer has closed the socket. -/
  closed : Bool := false
  /-- What arrived and the client has not taken. -/
  inbox : List (Except ConnectionError ServerMessage) := []
  /-- Whether the client has not turned away from what arrives. -/
  heeded : Bool := true
  /-- Whether more can arrive. -/
  reading : Bool := true
  deriving Inhabited

namespace Session

/-! ## The client -/

/-- Says something, as long as the socket is open. -/
def say (s : Session) (m : ClientMessage) : Session × Except ConnectionError Unit :=
  if s.closed then (s, .error .closed) else ({ s with queue := s.queue ++ [m] }, .ok ())

/-- Says nothing more. -/
def letGo (s : Session) : Session := { s with held := false }

/-- Takes what arrived first. -/
def take? (s : Session) : Option (Except ConnectionError ServerMessage × Session) :=
  match s.inbox with
  | [] => none
  | m :: rest => some (m, { s with inbox := rest })

/-- Whether the client has nothing more to take, now or later. -/
def isOver (s : Session) : Bool := !s.reading && s.inbox.isEmpty

/-- Takes nothing more. -/
def turnAway (s : Session) : Session := { s with heeded := false, inbox := [] }

/-! ## The reader -/

/-- Keeps something for the client, unless it has turned away. -/
def keep (s : Session) (m : Except ConnectionError ServerMessage) : Session :=
  if s.heeded then { s with inbox := s.inbox ++ [m] } else s

/-- What a message means for an open session.  A ping is answered unless the client has
let go; a message that there is nobody to keep it for ends the reading. -/
def hear (s : Session) : ServerMessage → Session
  | .ping payload => if s.held then (s.say (.pong payload)).1 else s
  | .pong _ => s
  | m => { s.keep (.ok m) with reading := s.heeded }

/-- Something arrives.  What is no message is passed over. -/
def arrive (s : Session) (a : Arrival) : Session :=
  if !s.reading then s
  else match a with
    | .ended | .frame (.close _) => { s with reading := false }
    | .broken text => { s.keep (.error (.webSocket text)) with reading := false }
    | .frame f => match f.message? with
      | some (.ok m) => s.hear m
      | some (.error _) | none => s

/-! ## The writer -/

/-- Writes the first message in the queue, or closes the socket if none will come. -/
def write (s : Session) : Session :=
  if s.closed then s
  else match s.queue with
    | m :: rest => { s with queue := rest, written := s.written ++ [m] }
    | [] => { s with closed := !s.held }

/-- Fails to write the first message in the queue, and closes the socket.  What else is
in the queue is lost. -/
def fail (s : Session) : Session :=
  if s.closed || s.queue.isEmpty then s else { s with queue := [], closed := true }

/-! ## Histories -/

/-- One thing that happens to a session. -/
inductive Move where
  | say (m : ClientMessage)
  | letGo
  | take
  | turnAway
  | arrive (a : Arrival)
  | write
  | fail
  deriving Inhabited

def step (s : Session) : Move → Session
  | .say m => if s.held then (s.say m).1 else s
  | .letGo => s.letGo
  | .take => (s.take?.map Prod.snd).getD s
  | .turnAway => s.turnAway
  | .arrive a => s.arrive a
  | .write => s.write
  | .fail => s.fail

/-- What moves in a row lead to. -/
def run (s : Session) (moves : List Move) : Session := moves.foldl step s

end Session
end Switchboard
