import Switchboard.Json.Decode

/-!
# Switchboard.GraphQL.Document

The body of a GraphQL request: the query text, and optionally the name of the
operation, the variables and extensions.

* `withVariable` — sets one variable;
* `fields`, `text` — the document as it is sent, its fields in declared order;
* `ofJson` — reads a document back.
-/

namespace Switchboard.GraphQL

structure Document where
  query : String
  operationName : Option String := none
  variableValues : Option Json := none
  extensions : Option Json := none
  deriving Repr, Inhabited

namespace Document

/-- A document with nothing but a query. -/
def ofQuery (query : String) : Document := { query }

def withOperationName (d : Document) (name : String) : Document :=
  { d with operationName := some name }

/-- Replaces all variables. -/
def withVariables (d : Document) (values : Json) : Document :=
  { d with variableValues := some values }

/-- Sets one variable.  Variables that are no object stay as they are. -/
def withVariable (d : Document) (name : String) (value : Json) : Document :=
  match d.variableValues with
  | none => { d with variableValues := some (.obj [(name, value)]) }
  | some (.obj fields) => { d with variableValues := some (.obj (Keyed.set name value fields)) }
  | some _ => d

def withExtensions (d : Document) (extensions : Json) : Document :=
  { d with extensions := some extensions }

/-! ## JSON -/

/-- A field that is left out when it has no value. -/
def field (key : String) (toJson : α → Json) (x : Option α) : List (String × Json) :=
  (x.map fun v => (key, toJson v)).toList

/-- The fields that are set, in declared order. -/
def fields (d : Document) : List (String × Json) :=
  ("query", .str d.query) ::
    field "operationName" .str d.operationName ++
    field "variables" id d.variableValues ++
    field "extensions" id d.extensions

def toJson (d : Document) : Json := .object d.fields

/-- The JSON text of a document. -/
def text (d : Document) : String := (Json.obj d.fields).render

open Json Record in
/-- A document, whose free values are read with `value`. -/
def record (value : Decoder Json) : Record Document :=
  mk <$> required "query" string
    <*> optional "operationName" string
    <*> optional "variables" value
    <*> optional "extensions" value

def ofJson : Json.Decoder Document := Json.Record.decode "RequestDocument" (record Json.anything)

end Document
end Switchboard.GraphQL
