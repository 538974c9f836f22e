import Switchboard.GraphQL.Document

/-!
# Switchboard.GraphQL.Response

What a GraphQL server answers: data, errors, and extensions.  Errors may come with
data, so both are kept; `data?` takes any error as fatal.

* `FieldError` — one error of the server, with the place in the query and the path
  in the data that it belongs to;
* `FieldError.describe`, `pathText` — an error and a path as one line of text;
* `toJson`, `ofJson` — responses as they are written.
-/

namespace Switchboard.GraphQL

/-- A place in a query, counted from 1. -/
structure Location where
  line : Nat
  column : Nat
  deriving DecidableEq, Repr

/-- A step from a value to a part of it. -/
inductive PathSegment where
  | field (name : String)
  | index (n : Nat)
  deriving DecidableEq, Repr

/-- An error that a server reports. -/
structure FieldError where
  message : String
  locations : Option (List Location) := none
  path : Option (List PathSegment) := none
  extensions : Option Json := none
  deriving Repr, Inhabited

structure Response (α : Type) where
  data : Option α := none
  errors : List FieldError := []
  extensions : Option Json := none
  deriving Repr, Inhabited

/-! ## Text -/

def PathSegment.text : PathSegment → String
  | field name => name
  | index n => s!"[{n}]"

def pathText (path : List PathSegment) : String := ".".intercalate (path.map (·.text))

def Location.text (l : Location) : String := s!"{l.line}:{l.column}"

/-- An error as one line: its message, its path and its places. -/
def FieldError.describe (e : FieldError) : String :=
  e.message ++
    (match e.path with
      | some (s :: path) => s!" (path: {pathText (s :: path)})"
      | _ => "") ++
    (match e.locations with
      | some (l :: rest) => " at " ++ ", ".intercalate ((l :: rest).map (·.text))
      | _ => "")

/-! ## Results -/

namespace Response

variable {α : Type}

def hasErrors (r : Response α) : Bool := !r.errors.isEmpty

/-- The data, unless there are errors or there is none. -/
def data? (r : Response α) : Except (List FieldError) α :=
  if r.hasErrors then .error r.errors
  else match r.data with
    | some x => .ok x
    | none => .error [{ message := "Response contained no data" }]

def map (f : α → β) (r : Response α) : Response β := { r with data := r.data.map f }

end Response

/-! ## JSON -/

def Location.toJson (l : Location) : Json :=
  .object [("line", .int l.line), ("column", .int l.column)]

def PathSegment.toJson : PathSegment → Json
  | field name => .str name
  | index n => .int n

def FieldError.toJson (e : FieldError) : Json :=
  .object (("message", .str e.message) ::
    Document.field "locations" (fun ls => .arr (ls.map (·.toJson))) e.locations ++
    Document.field "path" (fun p => .arr (p.map (·.toJson))) e.path ++
    Document.field "extensions" id e.extensions)

/-- A response as it is written: data always, the rest where there is any. -/
def Response.toJson (write : α → Json) (r : Response α) : Json :=
  let errors := if r.hasErrors then [("errors", Json.arr (r.errors.map (·.toJson)))] else []
  .object (("data", (r.data.map write).getD .null) :: errors ++
    Document.field "extensions" id r.extensions)

open Json Record

def Location.ofJson : Decoder Location :=
  Record.decode "ErrorLocation"
    (Location.mk <$> required "line" (natural "u32" UInt32.size)
      <*> required "column" (natural "u32" UInt32.size))

/-- A string is the name of a field, and a whole number that is not negative an index. -/
def PathSegment.ofJson : Decoder PathSegment
  | .str name => .ok (.field name)
  | .int n => if 0 ≤ n then .ok (.index n.toNat) else .error (.noAlternative "PathSegment")
  | _ => .error (.noAlternative "PathSegment")

def pathOfJson : Decoder (List PathSegment) := sequence PathSegment.ofJson

def FieldError.ofJson : Decoder FieldError :=
  Record.decode "GraphQLResponseError"
    (FieldError.mk <$> required "message" string
      <*> defaulted "locations" none (nullable (sequence Location.ofJson))
      <*> defaulted "path" none (nullable pathOfJson)
      <*> defaulted "extensions" none (nullable anything))

/-- A response whose data is read with `d`. -/
def Response.ofJson (d : Decoder α) : Decoder (Response α) :=
  Record.decode "GraphQLResponse"
    (Response.mk <$> defaulted "data" none (nullable d)
      <*> defaulted "errors" [] (sequence FieldError.ofJson)
      <*> defaulted "extensions" none (nullable anything))

end Switchboard.GraphQL
