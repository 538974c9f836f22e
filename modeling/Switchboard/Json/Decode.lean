import Switchboard.Json.Parser
import Switchboard.Json.Printer

/-!
# Switchboard.Json.Decode

Reading domain values out of JSON.

* `DecodeError` — what can be wrong with a value, and how it is said;
* `Decoder` — a reader, with the readers for plain values;
* `Record` — a reader for a value with named fields, built field by field;
* `choice` — a reader for a value that is one of several names.

A record is written as an object, or as an array of its fields in declared order.
Fields are read in the order in which they stand, and the first one that is
wrong is reported; what is missing is found only after that.
-/

namespace Switchboard.Json

/-! ## Errors -/

inductive DecodeError where
  /-- A value of another kind than the one expected. -/
  | invalidType (found : Json) (expected : String)
  /-- A whole number outside the range expected. -/
  | outOfRange (found : Int) (expected : String)
  /-- An object that should have exactly one key. -/
  | notSingleKey
  | missingField (name : String)
  | duplicateField (name : String)
  | unknownVariant (found : String) (expected : List String)
  /-- A sequence of `length` items where another number was expected. -/
  | invalidLength (length : Nat) (expected : String)
  /-- A value that is none of the alternatives of an untagged choice. -/
  | noAlternative (name : String)
  /-- A value that refuses to be written or read, in its own words. -/
  | custom (message : String)
  deriving Repr, Inhabited

/-- How an error names the value that it complains about. -/
def describe : Json → String
  | .null => "null"
  | .bool b => s!"boolean `{b}`"
  | .int n => s!"integer `{n}`"
  | .float x => s!"floating point `{x.render}`"
  | .str s => "string " ++ Text.quoted s
  | .arr _ => "sequence"
  | .obj _ => "map"

/-- Names in a list of alternatives. -/
def alternatives (names : List String) : String :=
  ", ".intercalate (names.map fun n => s!"`{n}`")

def DecodeError.message : DecodeError → String
  | .invalidType found expected => s!"invalid type: {describe found}, expected {expected}"
  | .outOfRange found expected => s!"invalid value: integer `{found}`, expected {expected}"
  | .notSingleKey => "invalid value: map, expected map with a single key"
  | .missingField name => s!"missing field `{name}`"
  | .duplicateField name => s!"duplicate field `{name}`"
  | .unknownVariant found expected =>
    s!"unknown variant `{found}`, expected one of {alternatives expected}"
  | .invalidLength length expected => s!"invalid length {length}, expected {expected}"
  | .noAlternative name => s!"data did not match any variant of untagged enum {name}"
  | .custom message => message

/-! ## Plain values -/

abbrev Decoder (α : Type) := Json → Except DecodeError α

def string : Decoder String
  | .str s => .ok s
  | j => .error (.invalidType j "a string")

def boolean : Decoder Bool
  | .bool b => .ok b
  | j => .error (.invalidType j "a boolean")

/-- Any value at all. -/
def anything : Decoder Json := .ok

/-- A whole number below `bound`, called `name` in errors. -/
def natural (name : String) (bound : Nat) : Decoder Nat
  | .int n =>
    if 0 ≤ n ∧ n < bound then .ok n.toNat else .error (.outOfRange n name)
  | j => .error (.invalidType j name)

/-- The value, or nothing for null. -/
def nullable (d : Decoder α) : Decoder (Option α)
  | .null => .ok none
  | j => (d j).map some

/-- Reads each item in turn. -/
def decodeItems (d : Decoder α) : List Json → Except DecodeError (List α)
  | [] => .ok []
  | j :: rest => do
    let x ← d j
    let xs ← decodeItems d rest
    return x :: xs

def sequence (d : Decoder α) : Decoder (List α)
  | .arr items => decodeItems d items
  | j => .error (.invalidType j "a sequence")

/-- One of several names.  The name may also be the only key of an object, with
null as its value.  `listed` are the names that an error shows. -/
def choice (table : List (String × α)) (listed : List String) : Decoder α
  | .str s => named s
  | .obj [(k, v)] => do
    let x ← named k
    match v with
    | .null => .ok x
    | v => .error (.invalidType v "unit")
  | .obj _ => .error .notSingleKey
  | j => .error (.invalidType j "string or map")
where
  named (s : String) : Except DecodeError α :=
    match table.lookup s with
    | some x => .ok x
    | none => .error (.unknownVariant s listed)

/-! ## Records -/

/-- When a field may be left out. -/
inductive Absence where
  | never
  /-- From an object, but not from an array. -/
  | fromObject
  /-- From an object, and from the end of an array. -/
  | always
  deriving DecidableEq, Repr

/-- A field as a record declares it. -/
structure Field where
  key : String
  absence : Absence
  check : Json → Except DecodeError Unit

/-- The fields of a record with what was found for each. -/
abbrev Slots := List (String × Json)

/-- A reader for records with given fields. -/
structure Record (α : Type) where
  fields : List Field
  build : Slots → Except DecodeError α

namespace Record

def pure (x : α) : Record α := ⟨[], fun _ => .ok x⟩

/-- Puts the reader of one more field after a record's. -/
def seq (r : Record (α → β)) (s : Record α) : Record β where
  fields := r.fields ++ s.fields
  build slots := do
    let f ← r.build slots
    let x ← s.build slots
    return f x

/-- A field that has to be there. -/
def required (key : String) (d : Decoder α) : Record α where
  fields := [⟨key, .never, fun j => do let _ ← d j⟩]
  build slots := match slots.lookup key with
    | some j => d j
    | none => .error (.missingField key)

/-- A field that an object may leave out or set to null. -/
def optional (key : String) (d : Decoder α) : Record (Option α) where
  fields := [⟨key, .fromObject, fun j => do let _ ← nullable d j⟩]
  build slots := match slots.lookup key with
    | some j => nullable d j
    | none => .ok none

/-- A field that stands for `value` when it is left out. -/
def defaulted (key : String) (value : α) (d : Decoder α) : Record α where
  fields := [⟨key, .always, fun j => do let _ ← d j⟩]
  build slots := match slots.lookup key with
    | some j => d j
    | none => .ok value

instance : Functor Record := ⟨fun f r => seq (pure f) r, fun x r => seq (pure fun _ => x) r⟩

instance : Seq Record := ⟨fun r s => seq r (s ())⟩

/-- Reads the fields of an object as they stand; one that is not declared is skipped. -/
def visitFields (fields : List Field) : Slots → Slots → Except DecodeError Slots
  | found, [] => .ok found
  | found, (k, j) :: rest =>
    match fields.find? (·.key == k) with
    | none => visitFields fields found rest
    | some f =>
      if (found.lookup k).isSome then .error (.duplicateField k)
      else do
        f.check j
        visitFields fields ((k, j) :: found) rest

/-- Reads the items of an array as the fields in declared order: what was found,
and the items left over.  `index` fields are read already. -/
def visitItems (expected : String) :
    Nat → List Field → List Json → Except DecodeError (Slots × List Json)
  | _, [], items => .ok ([], items)
  | index, f :: fields, [] =>
    if f.absence = .always then visitItems expected (index + 1) fields []
    else .error (.invalidLength index expected)
  | index, f :: fields, j :: items => do
    f.check j
    let (found, left) ← visitItems expected (index + 1) fields items
    return ((f.key, j) :: found, left)

/-- `n` of a thing. -/
def count (n : Nat) (thing : String) : String :=
  if n = 1 then s!"{n} {thing}" else s!"{n} {thing}s"

/-- Reads a record called `name`; `surplus` says what was expected of an array
with too many items, given the number of fields. -/
def read (name : String) (surplus : Nat → String) (r : Record α) : Decoder α
  | .obj entries => do
    let slots ← visitFields r.fields [] entries
    r.build slots
  | .arr items => do
    let n := r.fields.length
    let (slots, left) ← visitItems (s!"{name} with " ++ count n "element") 0 r.fields items
    let x ← r.build slots
    if left.isEmpty then .ok x else .error (.invalidLength items.length (surplus n))
  | j => .error (.invalidType j name)

/-- Reads a record that stands in a value. -/
def decode (name : String) (r : Record α) : Decoder α :=
  r.read s!"struct {name}" fun _ => "fewer elements in array"

/-- Reads a record that stands in a message, whose parts are gathered before they
are read. -/
def decodeGathered (name : String) (r : Record α) : Decoder α :=
  r.read name fun n => count n "element" ++ " in sequence"

end Record
end Switchboard.Json
