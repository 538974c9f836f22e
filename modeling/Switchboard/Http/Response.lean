import Switchboard.Http.Error
import Switchboard.Http.Header
import Switchboard.Json.Parser

/-!
# Switchboard.Http.Response

Answers of a server, with the whole body.
-/

namespace Switchboard.Http

structure Response where
  status : Nat
  headers : Headers
  body : Bytes
  deriving DecidableEq, Repr, Inhabited

namespace Response

/-- A status has three digits. -/
def isStatus (n : Nat) : Bool := 100 ≤ n && n ≤ 999

def isSuccess (r : Response) : Bool := 200 ≤ r.status && r.status ≤ 299

/-- Whether the status blames the client or the server. -/
def isError (r : Response) : Bool := 400 ≤ r.status && r.status ≤ 599

/-- The first value of a header, if it is all visible ASCII. -/
def header? (r : Response) (name : String) : Option String :=
  (r.headers.first? name).filter isPlainValue

/-- The body as a text. -/
def text (r : Response) : Except Error String :=
  (Text.decode r.body).mapError fun e => .json e.message

/-- The value that the body holds. -/
def json (r : Response) : Except Error Json :=
  match Json.ofBytes? r.body with
  | some j => .ok j
  | none => .error (.json "")

/-- The response, unless its status is an error. -/
def checked (r : Response) : Except Error Response :=
  if r.isError then .error (.status r.status (Text.decodeLossy r.body)) else .ok r

end Response
end Switchboard.Http
