import Switchboard.Http.Response
import Switchboard.Json.Skim
import Switchboard.Rest.Request

/-!
# Switchboard.Rest.Response

Answers to REST requests.  Only an answer whose status is a success is one.
-/

namespace Switchboard.Rest

structure Response where
  status : Nat
  headers : Http.Headers
  body : Bytes
  deriving DecidableEq, Repr, Inhabited

namespace Response

/-- The answer that an HTTP response gives. -/
def ofHttp (r : Http.Response) : Except ApiError Response :=
  if r.isSuccess then .ok ⟨r.status, r.headers, r.body⟩
  else .error (.http r.status (Text.decodeLossy r.body))

/-- The body as a text. -/
def text (r : Response) : Except ApiError String :=
  (Text.decode r.body).mapError fun e => .protocol e.message

/-- The value that the body holds. -/
def json (r : Response) : Except ApiError Json :=
  match Json.ofBytes? r.body with
  | some j => .ok j
  | none => .error (.protocol "")

/-- The record called `name` that the body holds.  Fields that it does not declare
are passed over, and a field that comes twice is refused. -/
def record (name : String) (d : Json.Record α) (r : Response) : Except ApiError α :=
  match d.ofBytes name r.body with
  | some read => read.mapError .ofDecode
  | none => .error (.protocol "")

end Response
end Switchboard.Rest
