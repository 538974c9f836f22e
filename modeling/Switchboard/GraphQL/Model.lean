import Switchboard.GraphQL.Predicate
import Switchboard.GraphQL.Request
import Switchboard.Text.Blank

/-!
# Switchboard.GraphQL.Model

Requests for the items of a model: one by its id, a list of them by a predicate,
a change, and a subscription to changes.

A model has a name and fields, and each request selects all of the fields in
their order.
-/

namespace Switchboard.GraphQL

structure Model where
  name : String
  /-- The fields, in the order in which they are selected. -/
  fields : List String
  /-- What a list of items is called, unless it is the name with an `s`. -/
  collection : Option String := none
  deriving DecidableEq, Repr, Inhabited

/-- An item of a model: its id, and its JSON form or why it has none. -/
structure Item where
  id : String
  json : Except String Json

inductive Mutation where
  | create | update | delete
  deriving DecidableEq, Repr, Inhabited

/-- Which changes a subscription is about. -/
inductive Change where
  | onCreate | onUpdate | onDelete
  deriving DecidableEq, Repr, Inhabited

def Mutation.verb : Mutation → String
  | create => "Create"
  | update => "Update"
  | delete => "Delete"

/-- The verb at the start of the name of a root field. -/
def Mutation.field : Mutation → String
  | create => "create"
  | update => "update"
  | delete => "delete"

def Change.verb : Change → String
  | onCreate => "Create"
  | onUpdate => "Update"
  | onDelete => "Delete"

namespace Model

def plural (m : Model) : String := m.collection.getD (m.name ++ "s")

/-- Words in braces, with a blank on both sides. -/
private def block (inner : String) : String := "\x7b " ++ inner ++ " \x7d"

/-- The fields of the model as a selection. -/
def selection (m : Model) : Except ApiError String :=
  if m.fields.isEmpty then .error (.requestShape s!"Model {m.name} declares no fields")
  else .ok (" ".intercalate m.fields)

/-- The filter of a predicate that compares fields of the model. -/
def filter (m : Model) (p : Predicate) : Except ApiError Json :=
  match p.unknownField? m.fields with
  | some f => .error (.requestShape s!"Predicate references unknown field '{f}' on {m.name}")
  | none => .ok p.toFilter

/-- Asks for the item with an id. -/
def query (m : Model) (itemId : String) : Except ApiError Request := do
  let selection ← m.selection
  if Text.isBlank itemId then .error (.requestShape s!"Cannot query {m.name} without an id")
  else
    let text := s!"query Get{m.name}($id: ID!) " ++
      block (s!"get{m.name}(id: $id) " ++ block selection)
    return (Request.ofQuery .single text).withVariable "id" (.str itemId)

/-- Asks for the items that satisfy a predicate. -/
def list (m : Model) (p : Option Predicate) : Except ApiError Request := do
  let selection ← m.selection
  let text := s!"query List{m.plural}($filter: Model{m.name}FilterInput) " ++
    block (s!"list{m.plural}(filter: $filter) " ++
      block ("items " ++ block selection ++ " nextToken"))
  let request := Request.ofQuery .array text
  match p with
  | none => return request
  | some p => return request.withVariable "filter" (← m.filter p)

/-- The input of a mutation: the id of an item to delete, or else the item. -/
def input (m : Model) (item : Item) : Mutation → Except ApiError Json
  | .delete => .ok (.obj [("id", .str item.id)])
  | _ => match item.json with
    | .error text => .error (.protocol text)
    | .ok (.obj fields) => .ok (.obj fields)
    | .ok _ => .error (.requestShape s!"Model {m.name} must serialize to an object")

/-- Changes an item, on a condition if there is one. -/
def mutation (m : Model) (item : Item) (p : Option Predicate) (kind : Mutation) :
    Except ApiError Request := do
  let selection ← m.selection
  let input ← m.input item kind
  let inputType := s!"{kind.verb}{m.name}Input"
  let conditionType := s!"Model{m.name}ConditionInput"
  let text :=
    s!"mutation {kind.verb}{m.name}($input: {inputType}!, $condition: {conditionType}) " ++
      block (s!"{kind.field}{m.name}(input: $input, condition: $condition) " ++ block selection)
  let condition ← match p with
    | none => pure []
    | some p => do pure [("condition", ← m.filter p)]
  return (Request.ofQuery .single text).withVariables (.object (("input", input) :: condition))

/-- Subscribes to changes. -/
def subscription (m : Model) (change : Change) : Except ApiError Request := do
  let selection ← m.selection
  let text := s!"subscription On{change.verb}{m.name} " ++
    block (s!"on{change.verb}{m.name} " ++ block selection)
  return Request.ofQuery .stream text

end Model
end Switchboard.GraphQL
