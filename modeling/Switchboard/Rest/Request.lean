import Switchboard.Call.Error
import Switchboard.Http.Request

/-!
# Switchboard.Rest.Request

A REST request: a method, a path under the endpoint of an API, and what goes with
it.

* `Request.create` — the request, unless its method takes no body and it has one;
* `Request.url` — where it goes, given the endpoint;
* `Request.parts` — what it is sent as.
-/

namespace Switchboard.Rest

inductive Method where
  | get | head | delete | put | post | patch
  deriving DecidableEq, Repr, Inhabited

namespace Method

def all : List Method := [get, head, delete, put, post, patch]

def name : Method → String
  | get => "GET"
  | head => "HEAD"
  | delete => "DELETE"
  | put => "PUT"
  | post => "POST"
  | patch => "PATCH"

/-- Whether a request with this method may have a body. -/
def allowsBody : Method → Bool
  | put | post | patch => true
  | _ => false

/-- The method with a name, in any case of the ASCII letters. -/
def ofName (s : String) : Except ApiError Method :=
  let upper := String.ofList (s.toList.map Char.toUpper)
  match all.find? (·.name == upper) with
  | some m => .ok m
  | none => .error (.requestShape s!"Unknown REST operation type: {s}")

end Method

/-- What a caller says about a request. -/
structure Options where
  path : String := ""
  data : Option Bytes := none
  query : Keyed String := []
  headers : Keyed String := []
  deriving DecidableEq, Repr, Inhabited

structure Request where
  method : Method
  options : Options
  deriving DecidableEq, Repr, Inhabited

namespace Request

/-- A request, unless its method takes no body and it has one. -/
def create (method : Method) (options : Options) : Except ApiError Request :=
  if options.data.isSome && !method.allowsBody then
    .error (.requestShape s!"HTTP method does not support data object! {method.name}")
  else .ok ⟨method, options⟩

/-- A text without the slashes at its end. -/
def trimSlashes (s : String) : String :=
  String.ofList (s.toList.reverse.dropWhile (· = '/')).reverse

/-- The endpoint with the path after it and one slash between them; the query
parameters come later. -/
def url (r : Request) (endpoint : String) : String :=
  let base := trimSlashes endpoint
  match r.options.path.toList with
  | [] => base
  | '/' :: _ => base ++ r.options.path
  | _ => base ++ "/" ++ r.options.path

/-- What the request is sent as. -/
def parts (r : Request) : List Http.Part :=
  .queries r.options.query :: r.options.headers.map (fun h => .header h.1 h.2) ++
    r.options.data.toList.map .body

end Request
end Switchboard.Rest
