import Switchboard.Json.Value
import Switchboard.Toml.Moment

/-!
# Switchboard.Toml.Value

Values as a document writes them, and what a configuration keeps of them.

* `Value.toJson?` — the JSON value that is kept, if there is one.

A moment is kept as an object with one field, `momentKey`.  So a table whose first
key is `momentKey` is a moment too: the text under that key spells it, and the
other entries of the table do not count.  A number too large to be kept is a fault
only where it counts.
-/

namespace Switchboard.Toml

/-- The key that marks a moment. -/
def momentKey : String := "$__toml_private_datetime"

/-- The object that a moment is kept as. -/
def Moment.toJson (m : Moment) : Json := .obj [(momentKey, .str m.render)]

inductive Value where
  | text (s : String)
  | moment (m : Moment)
  /-- A truth value or a number. -/
  | atom (j : Json)
  /-- A number that does not fit. -/
  | tooLarge
  | array (items : List Value)
  /-- A table, its keys in order. -/
  | table (entries : List (String × Value))
  deriving Repr, Inhabited

namespace Value

/-- The moment that a value under `momentKey` spells. -/
def marked? : Value → Option Moment
  | .text s => Moment.ofChars? s.toList
  | _ => none

mutual
/-- The JSON value that is kept of a value. -/
def toJson? : Value → Option Json
  | .text s => some (.str s)
  | .moment m => some m.toJson
  | .atom j => some j
  | .tooLarge => none
  | .array items => (itemsToJson? items).map .arr
  | .table [] => some (.obj [])
  | .table ((k, v) :: rest) =>
    if k = momentKey then v.marked?.map Moment.toJson
    else do
      let j ← v.toJson?
      let fields ← entriesToJson? rest
      return .obj ((k, j) :: fields)

def itemsToJson? : List Value → Option (List Json)
  | [] => some []
  | v :: rest => do
    let j ← v.toJson?
    let items ← itemsToJson? rest
    return j :: items

def entriesToJson? : List (String × Value) → Option (List (String × Json))
  | [] => some []
  | (k, v) :: rest => do
    let j ← v.toJson?
    let fields ← entriesToJson? rest
    return (k, j) :: fields
end

end Value
end Switchboard.Toml
