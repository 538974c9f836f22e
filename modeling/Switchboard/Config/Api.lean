import Switchboard.Config.Rule
import Switchboard.Json.Decode

/-!
# Switchboard.Config.Api

One configured API: where it is, what kind of backend it has and how its requests
are authorized.

* `validate` — whether an entry can be used;
* `subscriptionUrl` — where its subscriptions connect to;
* `ofJson`, `toJson` — the entry as the configuration holds it; the name is the
  key that the entry stands under and not part of it.
-/

namespace Switchboard

inductive EndpointType where
  | graphQL
  | rest
  deriving DecidableEq, Repr, Inhabited

/-- How the requests to an API are authorized. -/
inductive Authorization where
  | none
  | apiKey
  | awsIam
  | cognitoUserPools
  | openIdConnect
  | lambda
  deriving DecidableEq, Repr, Inhabited

namespace EndpointType

def name : EndpointType → String
  | graphQL => "GraphQL"
  | rest => "REST"

/-- The spellings that a configuration may use. -/
def spellings : List (String × EndpointType) :=
  [("GRAPHQL", graphQL), ("GraphQL", graphQL), ("graphql", graphQL),
    ("REST", rest), ("Rest", rest), ("rest", rest)]

def ofJson : Json.Decoder EndpointType := Json.choice spellings (spellings.map (·.1))

end EndpointType

namespace Authorization

def all : List Authorization :=
  [none, apiKey, awsIam, cognitoUserPools, openIdConnect, lambda]

def name : Authorization → String
  | none => "NONE"
  | apiKey => "API_KEY"
  | awsIam => "AWS_IAM"
  | cognitoUserPools => "AMAZON_COGNITO_USER_POOLS"
  | openIdConnect => "OPENID_CONNECT"
  | lambda => "AWS_LAMBDA"

/-- Whether requests carry a token in the `authorization` header. -/
def usesToken : Authorization → Bool
  | cognitoUserPools | openIdConnect | lambda => true
  | _ => false

def ofName? (s : String) : Option Authorization := all.find? (·.name == s)

def ofJson : Json.Decoder Authorization :=
  Json.choice (all.map fun a => (a.name, a)) (all.map name)

end Authorization

/-- The configuration of one API. -/
structure Api where
  name : String
  endpointType : EndpointType := .graphQL
  endpoint : String
  /-- Where subscriptions connect to; derived from `endpoint` when absent. -/
  realtimeEndpoint : Option String := none
  region : Option String := none
  authorization : Authorization := .none
  apiKey : Option String := none
  deriving DecidableEq, Repr

namespace Api

/-- An entry with a name and an endpoint, and nothing else set. -/
def create (name endpoint : String) : Api := { name, endpoint }

/-- Sets the key, and has requests authorized by it. -/
def withApiKey (api : Api) (key : String) : Api :=
  { api with authorization := .apiKey, apiKey := some key }

/-- Whether an entry can be used: the first rule it breaks. -/
def validate (api : Api) : Except ConfigError Unit := do
  Rule.notEmpty api.name api.name "name"
  Rule.notEmpty api.name api.endpoint "endpoint"
  Rule.isUrl api.name api.endpoint "endpoint"
  match api.realtimeEndpoint with
  | some url => Rule.isUrl api.name url "realtimeEndpoint"
  | none => .ok ()
  match api.authorization with
  | .apiKey => Rule.required api.name api.apiKey "apiKey"
  | .awsIam => Rule.required api.name api.region "region"
  | _ => .ok ()

/-- What follows a leading text. -/
def after? (lead s : String) : Option String :=
  if lead.toList.isPrefixOf s.toList then some (String.ofList (s.toList.drop lead.length)) else none

/-- Where subscriptions connect to: the endpoint under a websocket scheme, unless
the entry names another place. -/
def subscriptionUrl (api : Api) : String :=
  match api.realtimeEndpoint with
  | some url => url
  | none =>
    match after? "https://" api.endpoint with
    | some rest => "wss://" ++ rest
    | none => match after? "http://" api.endpoint with
      | some rest => "ws://" ++ rest
      | none => api.endpoint

/-! ## JSON -/

private def build (name : String) (endpointType : EndpointType) (endpoint : String)
    (realtimeEndpoint region : Option String) (authorization : Authorization)
    (apiKey : Option String) : Api :=
  { name, endpointType, endpoint, realtimeEndpoint, region, authorization, apiKey }

open Json Record in
/-- An entry as it is written; its own name, if it has one, does not count. -/
def record : Record Api :=
  build <$> defaulted "name" "" string
    <*> defaulted "endpointType" .graphQL EndpointType.ofJson
    <*> required "endpoint" string
    <*> defaulted "realtimeEndpoint" none (nullable string)
    <*> defaulted "region" none (nullable string)
    <*> defaulted "authorizationType" .none Authorization.ofJson
    <*> defaulted "apiKey" none (nullable string)

/-- The entry that stands under a name. -/
def ofJson (name : String) (j : Json) : Except Json.DecodeError Api := do
  let api ← Json.Record.decode "ApiConfiguration" record j
  return { api with name }

/-- A string, or null. -/
def optionalString : Option String → Json
  | some s => .str s
  | none => .null

/-- The entry as it is written, without its name. -/
def toJson (api : Api) : Json :=
  .object [
    ("endpointType", .str api.endpointType.name),
    ("endpoint", .str api.endpoint),
    ("realtimeEndpoint", optionalString api.realtimeEndpoint),
    ("region", optionalString api.region),
    ("authorizationType", .str api.authorization.name),
    ("apiKey", optionalString api.apiKey)]

end Api
end Switchboard
