/-!
# Switchboard.GraphQL.ConnectionError

How a subscription connection can fail, when it is opened and later.
-/

namespace Switchboard.GraphQL

inductive ConnectionError where
  /-- A message that is not JSON or does not decode, in the reader's words. -/
  | json (text : String)
  | webSocket (text : String)
  /-- The server did not complete the handshake. -/
  | handshake (text : String)
  /-- The upgrade or the acknowledgement took too long. -/
  | timeout
  | invalidUrl (text : String)
  | closed
  deriving DecidableEq, Repr, Inhabited

namespace ConnectionError

/-- The name of the kind of an error. -/
def kind : ConnectionError → String
  | json _ => "Json"
  | webSocket _ => "WebSocket"
  | handshake _ => "Handshake"
  | timeout => "Timeout"
  | invalidUrl _ => "InvalidUrl"
  | closed => "ConnectionClosed"

def message : ConnectionError → String
  | json text => "JSON error: " ++ text
  | webSocket text => "WebSocket error: " ++ text
  | handshake text => "Handshake failed: " ++ text
  | timeout => "Connection timed out"
  | invalidUrl text => "Invalid URL: " ++ text
  | closed => "Connection closed"

/-- Whether the network is at fault. -/
def isNetwork : ConnectionError → Bool
  | webSocket _ | closed | timeout => true
  | _ => false

/-- Whether the handshake was refused or never finished. -/
def isHandshake : ConnectionError → Bool
  | handshake _ | timeout => true
  | _ => false

end ConnectionError
end Switchboard.GraphQL
