import Switchboard.Toml.Value

/-!
# Switchboard.Toml.Table

The tables of a document, put together from its statements.

* `assign` — puts a value under a dotted key;
* `atPath` — changes the table that a header's path leads to;
* `Section.addTo` — adds a header and the entries that follow it;
* `assemble` — the whole document as a table.

A table can be filled from several places, but declared only once: a header
declares a table, the path before it only implies tables, and dotted keys make
tables of a third kind, which only dotted keys fill.
-/

namespace Switchboard.Toml

/-- How a table came to be. -/
inductive Origin where
  /-- A header names it. -/
  | declared
  /-- It stands in the path of a header. -/
  | implied
  /-- It stands in a dotted key. -/
  | dotted
  deriving DecidableEq, Repr

inductive Node where
  | value (v : Value)
  | table (origin : Origin) (entries : List (String × Node))
  /-- Tables in a row, the last one first. -/
  | tables (last : List (String × Node)) (earlier : List (List (String × Node)))
  deriving Repr, Inhabited

abbrev Entries := List (String × Node)

/-- A dotted key with its value; `path` is what stands before the last point. -/
structure Entry where
  path : List String
  key : String
  value : Value
  deriving Repr, Inhabited

structure Header where
  path : List String
  key : String
  /-- Whether the header starts one more table in a row. -/
  repeated : Bool
  deriving DecidableEq, Repr, Inhabited

/-- A header with the entries that follow it. -/
structure Section where
  header : Header
  entries : List Entry
  deriving Repr, Inhabited

/-! ## Entries -/

/-- Puts a value under a dotted key.  The table that takes it is the one that the
key starts from, or else one that dotted keys made. -/
def assign (key : String) (v : Value) : List String → Entries → Option Entries
  | [], t => if Keyed.has key t then none else some (Keyed.set key (.value v) t)
  | k :: path, t =>
    match Keyed.get? k t with
    | none => do
      let inner ← assign key v path []
      return Keyed.set k (.table .dotted inner) t
    | some (.table origin inner) =>
      if origin = .declared ∨ (path = [] ∧ origin = .implied) then none
      else do
        let inner ← assign key v path inner
        return Keyed.set k (.table origin inner) t
    | some (.tables last earlier) =>
      if path = [] then none
      else do
        let last ← assign key v path last
        return Keyed.set k (.tables last earlier) t
    | some (.value _) => none

/-- Puts entries into a table. -/
def fill : List Entry → Entries → Option Entries
  | [], t => some t
  | e :: rest, t => (assign e.key e.value e.path t).bind (fill rest)

/-! ## Headers -/

/-- Changes the table that a path leads to.  Tables in a row stand for their last
one, and a table that is not there yet is implied. -/
def atPath (change : Entries → Option Entries) : List String → Entries → Option Entries
  | [], t => change t
  | k :: path, t =>
    match Keyed.get? k t with
    | none => do
      let inner ← atPath change path []
      return Keyed.set k (.table .implied inner) t
    | some (.table origin inner) => do
      let inner ← atPath change path inner
      return Keyed.set k (.table origin inner) t
    | some (.tables last earlier) => do
      let last ← atPath change path last
      return Keyed.set k (.tables last earlier) t
    | some (.value _) => none

/-- Declares a table with some entries; one that is implied so far keeps what it has. -/
def declare (key : String) (entries : List Entry) (t : Entries) : Option Entries :=
  match Keyed.get? key t with
  | none => do
    let body ← fill entries []
    return Keyed.set key (.table .declared body) t
  | some (.table .implied inner) => do
    let body ← fill entries inner
    return Keyed.set key (.table .declared body) t
  | _ => none

/-- Adds a table with some entries to the tables in a row under a key. -/
def append (key : String) (entries : List Entry) (t : Entries) : Option Entries :=
  match Keyed.get? key t with
  | none => do
    let body ← fill entries []
    return Keyed.set key (.tables body []) t
  | some (.tables last earlier) => do
    let body ← fill entries []
    return Keyed.set key (.tables body (last :: earlier)) t
  | _ => none

/-- Adds a section to the tables of a document. -/
def Section.addTo (s : Section) (t : Entries) : Option Entries :=
  let change := if s.header.repeated then append else declare
  atPath (change s.header.key s.entries) s.header.path t

/-! ## The document -/

mutual
/-- What a node is as a value. -/
def Node.toValue : Node → Value
  | .value v => v
  | .table _ entries => .table (entriesToValues entries)
  | .tables last earlier => .array (rowToValues earlier [.table (entriesToValues last)])

def entriesToValues : Entries → List (String × Value)
  | [] => []
  | (k, n) :: rest => (k, n.toValue) :: entriesToValues rest

/-- Tables in a row, the last one first, before some values. -/
def rowToValues : List (List (String × Node)) → List Value → List Value
  | [], acc => acc
  | t :: rest, acc => rowToValues rest (.table (entriesToValues t) :: acc)
end

/-- The table that entries amount to on their own. -/
def tableOf? (entries : List Entry) : Option Value :=
  (fill entries []).map fun t => .table (entriesToValues t)

/-- The table that a document amounts to: entries before any header, and sections. -/
def assemble (entries : List Entry) (sections : List Section) : Option Value := do
  let t ← fill entries []
  let t ← sections.foldlM (fun t s => s.addTo t) t
  return .table (entriesToValues t)

end Switchboard.Toml
