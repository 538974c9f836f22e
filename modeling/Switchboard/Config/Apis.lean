import Switchboard.Config.Api

/-!
# Switchboard.Config.Apis

The configured APIs by name.  An entry is added only if it is valid and its name
is free, so that every configuration that is built here holds valid entries under
their own names.
-/

namespace Switchboard

/-- The configured APIs, in the order of their names. -/
structure Apis where
  entries : Keyed Api := []
  deriving DecidableEq, Repr

namespace Apis

def empty : Apis := {}

/-- Adds an entry. -/
def insert (apis : Apis) (api : Api) : Except ConfigError Apis := do
  api.validate
  if Keyed.has api.name apis.entries then .error (.invalid api.name .nameTaken)
  else .ok ⟨Keyed.set api.name api apis.entries⟩

/-- Adds the entries of an object in turn. -/
def insertAll : Apis → List (String × Json) → Except ConfigError Apis
  | apis, [] => .ok apis
  | apis, (name, j) :: rest => do
    let api ← (Api.ofJson name j).mapError fun e => .decode s!"API '{name}': {e.message}"
    let apis ← apis.insert api
    insertAll apis rest

/-- The configuration that an object of entries describes. -/
def ofJson : Json → Except ConfigError Apis
  | .obj entries => insertAll empty entries
  | _ => .error (.parse .notAnObject)

def get? (apis : Apis) (name : String) : Option Api := Keyed.get? name apis.entries

/-- The entries, in the order of their names. -/
def toList (apis : Apis) : List Api := apis.entries.map (·.2)

def size (apis : Apis) : Nat := apis.entries.length

def isEmpty (apis : Apis) : Bool := apis.entries.isEmpty

end Apis
end Switchboard
