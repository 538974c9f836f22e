import Switchboard.Session.Frame

/-!
# Switchboard.Session.Opening

How a session is opened.  The client has sent its first message and waits for the
server to acknowledge it; until then it answers pings and takes nothing else.

* `verdict` — what one arrival means for the opening;
* `awaitAck` — the opening as a whole: the answers to pings, and how it ends.
-/

namespace Switchboard.Session

open GraphQL (ClientMessage ServerMessage ConnectionError)

/-- What an arrival means for an opening. -/
inductive Verdict where
  /-- Nothing: the client waits on. -/
  | ignore
  /-- The client sends an answer and waits on. -/
  | reply (m : ClientMessage)
  | accept
  | fail (e : ConnectionError)
  deriving Inhabited

/-- What a message means for an opening. -/
def ServerMessage.verdict : ServerMessage → Verdict
  | .ack _ => .accept
  | .ping payload => .reply (.pong payload)
  | m => .fail (.handshake ("unexpected message before connection_ack: " ++ m.shown))

/-- What an arrival means for an opening.  Why a message cannot be read is not told. -/
def Arrival.verdict : Arrival → Verdict
  | ended => .fail .closed
  | broken text => .fail (.webSocket text)
  | frame (.close reason) =>
    .fail (.handshake ("closed before connection_ack: " ++ reason.getD ""))
  | frame f => match f.message? with
    | none => .ignore
    | some (.ok m) => ServerMessage.verdict m
    | some (.error _) => .fail (.handshake "")

/-- How an opening goes. -/
structure Opening where
  /-- The answers to pings, in order. -/
  replies : List ClientMessage := []
  /-- How it ends, with what arrives after that; nothing while it goes on. -/
  outcome : Option (Except ConnectionError (List Arrival)) := none

/-- Waits for the acknowledgement. -/
def awaitAck : List Arrival → Opening
  | [] => {}
  | a :: rest => match a.verdict with
    | .ignore => awaitAck rest
    | .reply m =>
      let opening := awaitAck rest
      { opening with replies := m :: opening.replies }
    | .accept => { outcome := some (.ok rest) }
    | .fail e => { outcome := some (.error e) }

end Switchboard.Session
