import Switchboard.Call.Error
import Switchboard.Config.Api
import Switchboard.Http.Request

/-!
# Switchboard.Auth.Providers

Where credentials come from.  An application supplies providers; the way an API is
authorized picks one of them, and makes a step out of it that every request to the
API goes through.
-/

namespace Switchboard

open Http (TokenProvider Interceptor)

/-- What an application supplies. -/
structure Providers where
  /-- Takes the place of the key in the configuration. -/
  apiKey : Option TokenProvider := none
  cognitoUserPools : Option TokenProvider := none
  oidc : Option TokenProvider := none
  lambda : Option TokenProvider := none
  /-- Signs requests. -/
  iamSigner : Option Interceptor := none

namespace Providers

/-- What is missing, with its article. -/
structure Wanted where
  article : String
  thing : String

def missing (api : Api) (w : Wanted) : ApiError :=
  .configuration
    (s!"API {api.name} uses {api.authorization.name} authorization " ++
      s!"but no {w.thing} was supplied")
    (s!"Register {w.article} {w.thing} for {api.authorization.name} on " ++ "ApiAuthProviders")

/-- The step that puts a provider's token into the authorization header. -/
def bearer (api : Api) (w : Wanted) : Option TokenProvider → Except ApiError Interceptor
  | some provider => .ok (Http.credential Http.authorizationHeader provider)
  | none => .error (missing api w)

/-- The key for an API: the provider's, or else the configured one. -/
def keyFor (p : Providers) (api : Api) : Option TokenProvider :=
  p.apiKey <|> api.apiKey.map .fixed

/-- The step that authorizes the requests to an API, if it needs one. -/
def interceptorFor (p : Providers) (api : Api) : Except ApiError (Option Interceptor) :=
  match api.authorization with
  | .none => .ok none
  | .apiKey => match p.keyFor api with
    | some provider => .ok (some (Http.credential Http.apiKeyHeader provider))
    | none => .error (missing api ⟨"an", "API key"⟩)
  | .cognitoUserPools =>
    (bearer api ⟨"a", "Cognito User Pools token provider"⟩ p.cognitoUserPools).map some
  | .openIdConnect => (bearer api ⟨"an", "OIDC token provider"⟩ p.oidc).map some
  | .lambda => (bearer api ⟨"a", "Lambda token provider"⟩ p.lambda).map some
  | .awsIam => match p.iamSigner with
    | some signer => .ok (some signer)
    | none => .error (missing api ⟨"an", "IAM request signer"⟩)

/-- Which providers there are, as one line of text. -/
def summary (p : Providers) : String :=
  let parts := [("api_key", p.apiKey.isSome), ("cognito_user_pools", p.cognitoUserPools.isSome),
    ("oidc", p.oidc.isSome), ("lambda", p.lambda.isSome), ("iam_signer", p.iamSigner.isSome)]
  "ApiAuthProviders \x7b " ++
    ", ".intercalate (parts.map fun p => s!"{p.1}: {p.2}") ++ " \x7d"

end Providers
end Switchboard
