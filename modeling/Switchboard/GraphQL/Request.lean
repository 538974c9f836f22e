import Switchboard.Call.Error

/-!
# Switchboard.GraphQL.Request

A document with the shape of the result that it asks for.

* `unwrap` — the value asked for, out of the data of a response;
* `Response.decode` — reads a response of a given shape.
-/

namespace Switchboard.GraphQL

/-- What a request asks for. -/
inductive Shape where
  /-- One item. -/
  | single
  /-- One collection. -/
  | array
  /-- Items as they come. -/
  | stream
  deriving DecidableEq, Repr, Inhabited

def Shape.name : Shape → String
  | single => "Single"
  | array => "Array"
  | stream => "Stream"

structure Request where
  document : Document
  shape : Shape
  deriving Repr, Inhabited

namespace Request

def ofQuery (shape : Shape) (query : String) : Request := ⟨.ofQuery query, shape⟩

def withVariable (r : Request) (name : String) (value : Json) : Request :=
  { r with document := r.document.withVariable name value }

def withVariables (r : Request) (values : Json) : Request :=
  { r with document := r.document.withVariables values }

def withOperationName (r : Request) (name : String) : Request :=
  { r with document := r.document.withOperationName name }

end Request

/-! ## Reading a response -/

/-- The value of the root field, if there is exactly one. -/
def unwrapRoot : Json → Json
  | .obj [(_, j)] => j
  | j => j

/-- The items of a page, if a collection is asked for and this is a page of one. -/
def unwrapPage (shape : Shape) (j : Json) : Json :=
  if shape = .array then (j.get? "items").getD j else j

/-- The value asked for, out of the data of a response. -/
def unwrap (shape : Shape) (data : Json) : Json := unwrapPage shape (unwrapRoot data)

/-- Reads the value asked for; null is no value. -/
def decodeData (d : Json.Decoder α) (shape : Shape) :
    Option Json → Except Json.DecodeError (Option α)
  | none => .ok none
  | some data => Json.nullable d (unwrap shape data)

/-- Reads a response.  Errors that the server reports stay in it. -/
def Response.decode (d : Json.Decoder α) (shape : Shape) (body : Json) :
    Except ApiError (Response α) := do
  let envelope ← (Response.ofJson Json.anything body).mapError .ofDecode
  let data ← (decodeData d shape envelope.data).mapError .ofDecode
  return { envelope with data }

end Switchboard.GraphQL
