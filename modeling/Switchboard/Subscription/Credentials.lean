import Switchboard.Http.Request

/-!
# Switchboard.Subscription.Credentials

What opens a subscription connection.  There are no headers in it, so what the steps
of a client put on a request is sent as a value in the first message.
-/

namespace Switchboard.Http.Client

/-- The headers that the steps of a client set on a request, and that were not on it
before, as an object; nothing if the client has no steps. -/
def credentials (c : Client) (now : Moment) (endpoint : String) : Except Error (Option Json) :=
  if c.interceptors.isEmpty then .ok none
  else do
    let before ← c.build "POST" endpoint []
    let after ← c.intercept now before
    let added := after.headers.toPairs.filter fun (name, value) =>
      before.headers.first? name ≠ some value && isPlainValue value
    return some (.object (added.map fun (name, value) => (name, .str value)))

end Switchboard.Http.Client
