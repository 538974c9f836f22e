import Switchboard.GraphQL.ConnectionError
import Switchboard.GraphQL.Message
import Switchboard.Text.Utf8

/-!
# Switchboard.Session.Frame

What comes over the socket of a session.  Messages come as text or as bytes; the
control frames of the socket itself hold none.
-/

namespace Switchboard.Session

open GraphQL (ServerMessage)

inductive Frame where
  | text (s : String)
  | binary (bytes : Bytes)
  | ping
  | pong
  | close (reason : Option String)
  deriving DecidableEq, Repr, Inhabited

inductive Arrival where
  | frame (f : Frame)
  /-- The transport fails, and nothing more comes. -/
  | broken (text : String)
  /-- Nothing more comes. -/
  | ended
  deriving DecidableEq, Repr, Inhabited

/-- The message in a frame, or what is wrong with it; a control frame has none. -/
def Frame.message? : Frame → Option (Except Json.TextFault ServerMessage)
  | text s => some (ServerMessage.ofText s)
  | binary bytes => some <| match Text.decode bytes with
    | .ok s => ServerMessage.ofText s
    | .error _ => .error .broken
  | ping | pong | close _ => none

end Switchboard.Session
