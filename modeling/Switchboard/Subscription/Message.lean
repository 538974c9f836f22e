import Switchboard.Call.Event
import Switchboard.GraphQL.Request

/-!
# Switchboard.Subscription.Message

What reaches one subscription over a shared connection, and the event that it
becomes.
-/

namespace Switchboard

open GraphQL (FieldError)

inductive StreamMessage where
  /-- One result, in its envelope. -/
  | next (payload : Json)
  /-- The server ended the subscription with errors. -/
  | errors (es : List FieldError)
  /-- The server ended the subscription. -/
  | complete
  /-- The shared connection is gone. -/
  | lost (e : ApiError)
  deriving Repr, Inhabited

namespace StreamMessage

/-- Whether nothing can follow. -/
def isFinal : StreamMessage → Bool
  | next _ => false
  | _ => true

/-- The event of a message; a result that does not decode is a failure. -/
def toEvent (decode : Json → Except ApiError α) : StreamMessage → Event α
  | next payload => match decode payload with
    | .ok x => .item x
    | .error e => .failed e
  | errors es => .failed (.graphQL es)
  | complete => .completed
  | lost e => .failed e

end StreamMessage

/-- An error that a server reports for a subscription; one that is in no known form
is shown as it is. -/
def GraphQL.FieldError.ofAny (j : Json) : FieldError :=
  match FieldError.ofJson j with
  | .ok e => e
  | .error _ => { message := j.render }

end Switchboard
