import Switchboard.Config.Error
import Switchboard.GraphQL.ConnectionError
import Switchboard.GraphQL.Response
import Switchboard.Http.Error

/-!
# Switchboard.Call.Error

How a call to an API can fail.  Errors of the layers below become errors of the
call by `ofHttp`, `ofConfig`, `ofConnection` and `ofDecode`.
-/

namespace Switchboard

open GraphQL

inductive ApiError where
  /-- A configuration that is missing or wrong, with a way to mend it. -/
  | configuration (message recovery : String)
  /-- A request that cannot be made, or not in this way. -/
  | requestShape (text : String)
  /-- A request that did not get through. -/
  | transport (e : Http.Error)
  /-- An answer whose status is no success. -/
  | http (status : Nat) (body : String)
  /-- A subscription connection that could not be opened, or was lost. -/
  | connection (text : String)
  /-- An answer that makes no sense. -/
  | protocol (text : String)
  /-- Errors that the service reports for a whole operation. -/
  | graphQL (errors : List FieldError)
  deriving Repr, Inhabited

namespace ApiError

/-- No client stands under this name. -/
def missingApi (name : String) : ApiError :=
  .configuration s!"No client information for API named {name}"
    ("Check your API configuration to make sure there is a correctly configured section for " ++
      name)

/-- The name of the kind of an error. -/
def kind : ApiError → String
  | configuration _ _ => "Configuration"
  | requestShape _ => "RequestShape"
  | transport _ => "Transport"
  | http _ _ => "Http"
  | connection _ => "Connection"
  | protocol _ => "Protocol"
  | graphQL _ => "GraphQL"

def message : ApiError → String
  | configuration text _ => text
  | requestShape text => text
  | transport e => "Transport error: " ++ e.message
  | http status body => s!"HTTP {status}: {body}"
  | connection text => "Subscription connection error: " ++ text
  | protocol text => "Protocol error: " ++ text
  | graphQL errors => "GraphQL error: " ++ "; ".intercalate (errors.map (·.describe))

/-! ## Classes -/

def isConfiguration : ApiError → Bool
  | configuration _ _ => true
  | _ => false

def isRequestShape : ApiError → Bool
  | requestShape _ => true
  | _ => false

/-- Whether the network or the server is at fault. -/
def isTransport : ApiError → Bool
  | transport _ | http _ _ | connection _ => true
  | _ => false

def isProtocol : ApiError → Bool
  | protocol _ => true
  | _ => false

def isTimeout : ApiError → Bool
  | transport e => e.isTimeout
  | _ => false

def isUnreachable : ApiError → Bool
  | transport e => e.isUnreachable
  | _ => false

/-- What to do about a configuration error. -/
def recovery? : ApiError → Option String
  | configuration _ recovery => some recovery
  | _ => none

def statusCode? : ApiError → Option Nat
  | http status _ => some status
  | transport e => e.statusCode?
  | _ => none

/-! ## From other errors -/

def ofHttp (e : Http.Error) : ApiError := .transport e

def ofConfig (e : ConfigError) : ApiError :=
  .configuration e.message "Fix the API configuration and try again"

def ofConnection : ConnectionError → ApiError
  | .json text => .protocol text
  | e => .connection e.message

def ofDecode (e : Json.DecodeError) : ApiError := .protocol e.message

end ApiError
end Switchboard
