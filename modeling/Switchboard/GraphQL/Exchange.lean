import Switchboard.GraphQL.Request
import Switchboard.Http.Request
import Switchboard.Http.Response

/-!
# Switchboard.GraphQL.Exchange

GraphQL over HTTP: how a document is sent, and what an answer means.
-/

namespace Switchboard.GraphQL

/-- What a document is sent as. -/
def Document.parts (d : Document) : List Http.Part := [.json (.ok (.obj d.fields))]

/-- The response in an answer.  An answer whose status is no success is an error with
its text, or with none if that is no UTF-8. -/
def Response.ofHttp (d : Json.Decoder α) (shape : Shape) (r : Http.Response) :
    Except ApiError (Response α) :=
  if !r.isSuccess then .error (.http r.status (r.text.toOption.getD ""))
  else match r.json with
    | .ok body => Response.decode d shape body
    | .error e => .error (.protocol e.message)

end Switchboard.GraphQL
