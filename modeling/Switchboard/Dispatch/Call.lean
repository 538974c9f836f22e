import Switchboard.GraphQL.Exchange
import Switchboard.GraphQL.Model
import Switchboard.Operation.Worker
import Switchboard.Rest.Response

/-!
# Switchboard.Dispatch.Call

What a caller can ask for, the request that it amounts to, and the answer.

* `Call` — a query, a change or a subscription, by a document or by a model, or a
  REST request;
* `Call.request` — the request of a call, if it is a proper one;
* `CallRequest.exchange` — sends a request and reads the answer;
* `CallRequest.plan` — the plan of the operation for a request.
-/

namespace Switchboard

open GraphQL (Shape Model Item Predicate Mutation Change)

inductive Call where
  | query (request : GraphQL.Request)
  | mutate (request : GraphQL.Request)
  | subscribe (request : GraphQL.Request)
  | queryModel (model : Model) (id : String)
  | listModels (model : Model) (predicate : Option Predicate)
  | mutateModel (model : Model) (item : Item) (predicate : Option Predicate) (kind : Mutation)
  | subscribeModel (model : Model) (change : Change)
  | rest (method : Rest.Method) (options : Rest.Options)

/-- The request of a call. -/
inductive CallRequest where
  | graphQL (r : GraphQL.Request)
  | rest (r : Rest.Request)
  deriving Inhabited

/-- What a call brings. -/
inductive Answer where
  | graphQL (r : GraphQL.Response Json)
  | rest (r : Rest.Response)
  deriving Inhabited

/-- Who makes a call. -/
structure Listener where
  /-- Reads the values that the call asks for. -/
  decode : Json.Decoder Json
  /-- The control calls that the listener makes while it hears its n-th event,
  counted from 1; `none` where it only listens. -/
  reaction : Nat → Option (List Control) := fun _ => none

/-! ## Requests -/

/-- The request, if its shape is one of some. -/
def GraphQL.Request.within (allowed : List Shape) (r : GraphQL.Request) :
    Except ApiError GraphQL.Request :=
  if allowed.contains r.shape then .ok r
  else .error (.requestShape s!"{r.shape.name} response shape is not valid for this operation")

/-- The request of a call, if it is a proper one. -/
def Call.request : Call → Except ApiError CallRequest
  | query r | mutate r => (r.within [.single, .array]).map .graphQL
  | subscribe r => (r.within [.stream]).map .graphQL
  | queryModel m id => (m.query id).map .graphQL
  | listModels m p => (m.list p).map .graphQL
  | mutateModel m item p kind => (m.mutation item p kind).map .graphQL
  | subscribeModel m change => (m.subscription change).map .graphQL
  | rest method options => (Rest.Request.create method options).map .rest

/-- Whether an improper call is reported to the listener, and not to the caller. -/
def Call.isGraphQL : Call → Bool
  | rest _ _ => false
  | _ => true

/-- What the network makes of a request that is sent. -/
abbrev Network := Http.Request → Except Http.ExchangeFault Http.Response

/-- A network where no server can be reached, and only `http` is spoken at all. -/
def Network.silent : Network := fun r =>
  .error (if r.url.scheme = "http" ∧ r.url.isSendable then .unreachable else .other)

namespace CallRequest

/-- The operation for a request goes on with items only for a stream. -/
def kind : CallRequest → Kind
  | graphQL r => if r.shape = .stream then .stream else .single
  | rest _ => .single

/-- The document of a request. -/
def document : CallRequest → GraphQL.Document
  | graphQL r => r.document
  | rest _ => .ofQuery ""

/-! ## Operations -/

/-- Sends a request over a network, from a client to an endpoint, and reads the answer. -/
def exchange (network : Network) (now : Http.Moment) (client : Http.Client) (endpoint : String)
    (decode : Json.Decoder Json) : CallRequest → Except ApiError Answer
  | graphQL r => do
    let sent ← (client.prepare now "POST" endpoint r.document.parts).mapError .ofHttp
    let answer ← (network sent).mapError fun fault => .ofHttp (.exchange fault)
    return .graphQL (← GraphQL.Response.ofHttp decode r.shape answer)
  | rest r => do
    let sent ← (client.prepare now r.method.name (r.url endpoint) r.parts).mapError .ofHttp
    let answer ← (network sent).mapError fun fault => .ofHttp (.exchange fault)
    return .rest (← Rest.Response.ofHttp answer)

/-- The plan of the operation for a request. -/
def plan (listener : Listener) (r : CallRequest) : Plan Answer where
  kind := r.kind
  decode payload := (GraphQL.Response.decode listener.decode .stream payload).map .graphQL
  reaction := listener.reaction

end CallRequest
end Switchboard
