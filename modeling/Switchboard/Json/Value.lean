import Switchboard.Keyed
import Switchboard.Number.Double

/-!
# Switchboard.Json.Value

JSON values.  An object is a list of fields; in a *canonical* value the keys of
every object are distinct and in order, and that is the form in which values are
kept.  A text may also give fields in another order or a key twice: `canonical`
brings it into form, and of two fields with one key the later one stays.
-/

namespace Switchboard

inductive Json where
  | null
  | bool (b : Bool)
  | int (n : Int)
  | float (x : Double)
  | str (s : String)
  | arr (items : List Json)
  | obj (fields : List (String × Json))
  deriving Repr, Inhabited

namespace Json

/-- An object with the given fields in order. -/
def object (fields : List (String × Json)) : Json := .obj (Keyed.ofList fields)

/-- The value of a field, if this is an object that has it. -/
def get? (key : String) : Json → Option Json
  | .obj fields => Keyed.get? key fields
  | _ => none

/-! ## Canonical form -/

mutual
/-- The value with the fields of every object in order. -/
def canonical : Json → Json
  | .arr items => .arr (canonicalItems items)
  | .obj fields => .obj (Keyed.ofList (canonicalFields fields))
  | j => j

def canonicalItems : List Json → List Json
  | [] => []
  | j :: rest => j.canonical :: canonicalItems rest

def canonicalFields : List (String × Json) → List (String × Json)
  | [] => []
  | (k, j) :: rest => (k, j.canonical) :: canonicalFields rest
end

end Json
end Switchboard
