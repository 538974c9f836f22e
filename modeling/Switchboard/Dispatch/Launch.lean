import Switchboard.Dispatch.Call
import Switchboard.Dispatch.Clients

/-!
# Switchboard.Dispatch.Launch

What becomes of a call to an API by its name.  A name that nobody has comes before
everything else that may be wrong with a call.  What is wrong with a GraphQL call the
listener hears, on the thread of the caller; what is wrong with a REST call the caller
gets back.
-/

namespace Switchboard

inductive Launch where
  /-- The operation for a request is started. -/
  | started (entry : ClientEntry) (request : CallRequest) (operation : Operation Answer)
  /-- The listener has heard of a failure. -/
  | reported (e : ApiError)
  /-- The call itself has failed. -/
  | refused (e : ApiError)

namespace Launch

/-- What the listener has heard when the call is over. -/
def heard : Launch → List (Event Answer)
  | started _ _ operation => operation.heard
  | reported e => [.failed e]
  | refused _ => []

def operation? : Launch → Option (Operation Answer)
  | started _ _ operation => some operation
  | _ => none

end Launch

namespace Clients

/-- Calls the API of a name. -/
def launch (clients : Clients) (listener : Listener) (name : String) (call : Call) : Launch :=
  let ready := do
    let entry ← clients.resolve name
    let request ← call.request
    return (entry, request)
  match ready with
  | .ok (entry, request) =>
    .started entry request (((Operation.create (request.plan listener)).perform .start).1)
  | .error e => if call.isGraphQL then .reported e else .refused e

end Clients
end Switchboard
