import Switchboard.Json.Decode

/-!
# Switchboard.Json.Tagged

Values of several shapes, where the field `type` tells the shape.

* `splitTag` — the tag of a value, and the value without it;
* `Shapes` — a table of tags with the reader for each;
* `Shapes.ofJson`, `Shapes.ofText` — read a value; a text may be at fault by itself.

The tag may stand anywhere in an object; in an array it comes first.  A text is
read as far as the tag before it is known to be sound, so of two faults the one
that comes first is reported.
-/

namespace Switchboard.Json

/-- A value as it is, with its objects in canonical form. -/
def value : Decoder Json := fun j => .ok j.canonical

/-- What can be wrong with a text. -/
inductive TextFault where
  /-- It is no JSON. -/
  | broken
  | decode (e : DecodeError)
  deriving Repr, Inhabited

def TextFault.message : TextFault → String
  | broken => ""
  | decode e => e.message

def tagKey : String := "type"

/-- The meaning of a tag. -/
def variant (tags : List (String × τ)) : Decoder τ
  | .str s => match tags.lookup s with
    | some t => .ok t
    | none => .error (.unknownVariant s (tags.map (·.1)))
  | j => .error (.invalidType j "variant identifier")

/-- Takes the tag out of the fields of an object. -/
def takeTag (tags : List (String × τ)) :
    Option τ → List (String × Json) → Except DecodeError (Option τ × List (String × Json))
  | found, [] => .ok (found, [])
  | found, (k, j) :: rest =>
    if k = tagKey then
      if found.isSome then .error (.duplicateField tagKey)
      else do
        let t ← variant tags j
        takeTag tags (some t) rest
    else do
      let (found, others) ← takeTag tags found rest
      return (found, (k, j) :: others)

/-- The tag of a value and the value without it; `name` is what errors call it. -/
def splitTag (name : String) (tags : List (String × τ)) : Json → Except DecodeError (τ × Json)
  | .obj fields => do
    match ← takeTag tags none fields with
    | (some t, others) => return (t, .obj others)
    | (none, _) => .error (.missingField tagKey)
  | .arr [] => .error (.missingField tagKey)
  | .arr (j :: items) => do
    let t ← variant tags j
    return (t, .arr items)
  | j => .error (.invalidType j s!"internally tagged enum {name}")

/-- The fault of a text that breaks off: the first one in what could be read, as
far as the tag is concerned, or else that it breaks off. -/
def brokenFault (name : String) (tags : List (String × τ)) (begun : Option Json)
    (waiting : Option String) : TextFault :=
  match begun.map (splitTag name tags) with
  | some (.error (.missingField _)) | none => .broken
  | some (.error e) => .decode e
  | some (.ok _) => match begun with
    | some (.obj _) => if waiting = some tagKey then .decode (.duplicateField tagKey) else .broken
    | _ => .broken

/-- The tags of a value with the readers of its shapes. -/
structure Shapes (α : Type) where
  name : String
  table : List (String × Decoder α)

namespace Shapes

variable {α : Type}

def ofJson (s : Shapes α) : Decoder α := fun j => do
  let (d, body) ← splitTag s.name s.table j
  d body

def ofText (s : Shapes α) (text : String) : Except TextFault α :=
  match scan text with
  | .whole j rest => do
    let x ← (s.ofJson j).mapError .decode
    if rest.isEmpty then .ok x else .error .broken
  | .broken begun waiting => .error (brokenFault s.name s.table begun waiting)

end Shapes
end Switchboard.Json
