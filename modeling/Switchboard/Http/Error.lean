/-!
# Switchboard.Http.Error

How an HTTP request can fail, before it is sent and after.
-/

namespace Switchboard.Http

/-- How the exchange with the server can fail. -/
inductive ExchangeFault where
  | timeout
  /-- Nothing listens where the request goes. -/
  | unreachable
  | other
  deriving DecidableEq, Repr, Inhabited

inductive Error where
  | invalidUrl (text : String)
  /-- A request that cannot be built. -/
  | build (text : String)
  /-- An answer with an error status. -/
  | status (code : Nat) (message : String)
  | json (text : String)
  /-- A step between building and sending that refuses the request. -/
  | interceptor (text : String)
  | exchange (fault : ExchangeFault)
  /-- A text that is no URL. -/
  | urlParse
  deriving DecidableEq, Repr, Inhabited

namespace Error

/-- The name of the kind of an error. -/
def kind : Error → String
  | invalidUrl _ => "InvalidUrl"
  | build _ => "RequestBuild"
  | status _ _ => "Response"
  | json _ => "Json"
  | interceptor _ => "Interceptor"
  | exchange _ => "Http"
  | urlParse => "UrlParse"

def message : Error → String
  | invalidUrl text => "Invalid URL: " ++ text
  | build text => "Failed to build request: " ++ text
  | status code text => s!"Response error: {code} - {text}"
  | json text => "JSON error: " ++ text
  | interceptor text => "Interceptor error: " ++ text
  | exchange _ => "HTTP error: "
  | urlParse => "URL parse error: "

def isTimeout (e : Error) : Bool := e = exchange .timeout

/-- Whether the server could not be reached. -/
def isUnreachable (e : Error) : Bool := e = exchange .unreachable

/-- Whether the request was refused before it was sent. -/
def isRequestError : Error → Bool
  | invalidUrl _ | build _ | interceptor _ | urlParse => true
  | _ => false

/-- The status of the answer that is the error. -/
def statusCode? : Error → Option Nat
  | status code _ => some code
  | _ => none

end Error
end Switchboard.Http
