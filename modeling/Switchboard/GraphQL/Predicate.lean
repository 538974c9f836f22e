import Switchboard.Json.Printer

/-!
# Switchboard.GraphQL.Predicate

Conditions on the fields of a model, and the filter objects that they are sent as.

* `and`, `or` — join two conditions; a list of conditions grows at its end;
* `toFilter`, `text` — the filter object, and its JSON text;
* `fields` — the fields that are compared, from left to right.
-/

namespace Switchboard.GraphQL

inductive Comparison where
  | eq | ne | lt | le | gt | ge | contains | beginsWith
  deriving DecidableEq, Repr, Inhabited

/-- The key that a comparison has in a filter. -/
def Comparison.key : Comparison → String
  | eq => "eq"
  | ne => "ne"
  | lt => "lt"
  | le => "le"
  | gt => "gt"
  | ge => "ge"
  | contains => "contains"
  | beginsWith => "beginsWith"

inductive Predicate where
  | compare (field : String) (comparison : Comparison) (value : Json)
  | all (parts : List Predicate)
  | any (parts : List Predicate)
  | not (part : Predicate)
  deriving Repr, Inhabited

namespace Predicate

/-- Both conditions. -/
def and : Predicate → Predicate → Predicate
  | all parts, q => all (parts ++ [q])
  | p, q => all [p, q]

/-- Either condition. -/
def or : Predicate → Predicate → Predicate
  | any parts, q => any (parts ++ [q])
  | p, q => any [p, q]

mutual
/-- The filter object of a condition. -/
def toFilter : Predicate → Json
  | compare field comparison value => .obj [(field, .obj [(comparison.key, value)])]
  | all parts => .obj [("and", .arr (filters parts))]
  | any parts => .obj [("or", .arr (filters parts))]
  | not part => .obj [("not", part.toFilter)]

def filters : List Predicate → List Json
  | [] => []
  | p :: rest => p.toFilter :: filters rest
end

/-- The filter as JSON text. -/
def text (p : Predicate) : String := p.toFilter.render

mutual
/-- The fields that are compared, from left to right. -/
def fields : Predicate → List String
  | compare field _ _ => [field]
  | all parts | any parts => fieldsOf parts
  | not part => part.fields

def fieldsOf : List Predicate → List String
  | [] => []
  | p :: rest => p.fields ++ fieldsOf rest
end

/-- The first field that is compared and not among those known. -/
def unknownField? (known : List String) (p : Predicate) : Option String :=
  p.fields.find? fun f => !known.contains f

end Predicate
end Switchboard.GraphQL
