import Switchboard.Toml.Quoted
import Switchboard.Toml.Scalar
import Switchboard.Toml.Table

/-!
# Switchboard.Toml.Parser

Documents: lines that give a key its value, and headers that say which table the
lines after them fill.

* `value?` — reads a value; arrays and inline tables nest `maxDepth` deep, and a
  dotted key has as many parts at most;
* `statements?` — reads the lines of a document;
* `ofText?` — the JSON value that is kept of a document.
-/

namespace Switchboard.Toml

/-- How deep arrays and inline tables may nest, and how many parts a key may have. -/
def maxDepth : Nat := 80

/-- A reader: what it read and what follows. -/
abbrev Reader (α : Type) := List Char → Option (α × List Char)

/-! ## Between the words -/

/-- Drops a comment after its `#`, up to the end of the line. -/
def comment? (cs : List Char) : Option (List Char) :=
  let line := cs.takeWhile (· ≠ '\n')
  let rest := cs.drop line.length
  let body := if rest.isEmpty then line else
    match line.reverse with
    | '\r' :: r => r
    | r => r
  if body.any isControl then none else some rest

/-- Drops blanks, line ends and comments, `fuel` of them at most. -/
def filler? : Nat → List Char → Option (List Char)
  | 0, cs => some cs
  | fuel + 1, '#' :: r => (comment? r).bind (filler? fuel)
  | fuel + 1, '\r' :: '\n' :: r => filler? fuel r
  | fuel + 1, c :: r => if isSpace c || c == '\n' then filler? fuel r else some (c :: r)
  | _ + 1, [] => some []

/-- Drops everything before the next word. -/
def skipFiller? (cs : List Char) : Option (List Char) := filler? (cs.length + 1) cs

/-- Drops the end of a line: blanks, and maybe a comment. -/
def lineEnd? (cs : List Char) : Option (List Char) :=
  match cs.dropWhile isSpace with
  | '#' :: r => comment? r
  | '\n' :: r => some r
  | '\r' :: '\n' :: r => some r
  | [] => some []
  | _ => none

/-! ## Keys -/

/-- Characters that need no quotes in a key. -/
def isBare (c : Char) : Bool := c.isAlphanum || c == '_' || c == '-'

/-- Reads one part of a key. -/
def part? (cs : List Char) : Option (String × List Char) :=
  match string? cs with
  | some (s, r) => some (String.ofList s, r)
  | none =>
    let word := cs.takeWhile isBare
    if word.isEmpty then none else some (String.ofList word, cs.dropWhile isBare)

/-- Reads a key of several parts with points between them, `fuel` parts at most:
the parts before the last one, and the last one. -/
def keyParts? : Nat → Reader (List String × String)
  | 0, _ => none
  | fuel + 1, cs => do
    let (p, r) ← part? (cs.dropWhile isSpace)
    match r.dropWhile isSpace with
    | '.' :: r => do
      let ((path, key), r) ← keyParts? fuel r
      return ((p :: path, key), r)
    | r => return (([], p), r)

/-- Reads a key of at most `maxDepth` parts. -/
def key? : Reader (List String × String) := keyParts? maxDepth

/-! ## Values -/

/-- Whether a character ends a word. -/
def endsWord (c : Char) : Bool :=
  c ∈ [' ', '\t', '\n', '\r', '#', ',', ']', '\x7d']

/-- Splits a word off.  One blank may stand between a date and a time. -/
def word (cs : List Char) : List Char × List Char :=
  let first := cs.takeWhile (!endsWord ·)
  let rest := cs.dropWhile (!endsWord ·)
  match date? first, rest with
  | some (_, []), ' ' :: c :: r =>
    if c.isDigit then
      (first ++ ' ' :: (c :: r).takeWhile (!endsWord ·), (c :: r).dropWhile (!endsWord ·))
    else (first, rest)
  | _, _ => (first, rest)

/-- Reads a string or a word. -/
def plain? (cs : List Char) : Option (Value × List Char) :=
  match cs with
  | '"' :: _ | '\'' :: _ => (anyString? cs).map fun (s, r) => (.text (String.ofList s), r)
  | _ =>
    let (w, r) := word cs
    (scalar? w).map fun v => (v, r)

/-- Reads items with commas between them up to a closing character, `fuel` items
at most.  A comma may follow the last one. -/
def items? (item : Reader α) (close : Char) : Nat → Reader (List α)
  | 0, _ => none
  | fuel + 1, cs => do
    match ← skipFiller? cs with
    | [] => none
    | c :: r =>
      if c = close then some ([], r)
      else
        let (x, r) ← item (c :: r)
        match ← skipFiller? r with
        | ',' :: r =>
          let (xs, r) ← items? item close fuel r
          return (x :: xs, r)
        | d :: r => if d = close then some ([x], r) else none
        | [] => none

/-- Reads a key, an equals sign and a value. -/
def binding? (value : Reader Value) : Reader Entry := fun cs => do
  let ((path, key), r) ← key? cs
  match r with
  | '=' :: r =>
    let (v, r) ← value (r.dropWhile isSpace)
    return (⟨path, key, v⟩, r)
  | _ => none

/-- Reads a value with at most `depth` arrays and inline tables around another. -/
def value? : (depth : Nat) → Reader Value
  | 0, cs => match cs with
    | '[' :: _ | '\x7b' :: _ => none
    | cs => plain? cs
  | depth + 1, cs => match cs with
    | '[' :: r => do
      let (items, r) ← items? (value? depth) ']' (r.length + 1) r
      return (.array items, r)
    | '\x7b' :: r => do
      let (entries, r) ← items? (binding? (value? depth)) '\x7d' (r.length + 1) r
      let v ← tableOf? entries
      return (v, r)
    | cs => plain? cs

/-! ## Lines -/

inductive Statement where
  | header (h : Header)
  | entry (e : Entry)
  deriving Repr, Inhabited

/-- Reads a header after its first bracket. -/
def header? : Reader Header
  | '[' :: r => do
    let ((path, key), r) ← key? r
    match r with
    | ']' :: ']' :: r => return (⟨path, key, true⟩, r)
    | _ => none
  | r => do
    let ((path, key), r) ← key? r
    match r with
    | ']' :: r => return (⟨path, key, false⟩, r)
    | _ => none

def statement? : Reader Statement
  | '[' :: r => (header? r).map fun (h, r) => (.header h, r)
  | r => (binding? (value? maxDepth) r).map fun (e, r) => (.entry e, r)

/-- Reads the lines of a document, `fuel` of them at most. -/
def statements? : Nat → List Char → Option (List Statement)
  | 0, _ => none
  | fuel + 1, cs => do
    match ← skipFiller? cs with
    | [] => some []
    | c :: r =>
      let (s, r) ← statement? (c :: r)
      let r ← lineEnd? r
      let rest ← statements? fuel r
      return s :: rest

/-- The entries before any header, and the sections. -/
def sections : List Statement → List Entry × List Section
  | [] => ([], [])
  | .entry e :: rest =>
    let (entries, later) := sections rest
    (e :: entries, later)
  | .header h :: rest =>
    let (entries, later) := sections rest
    ([], ⟨h, entries⟩ :: later)

/-- Drops a byte order mark. -/
def dropMark : List Char → List Char
  | c :: r => if c.toNat = 0xFEFF then r else c :: r
  | [] => []

/-- The JSON value that is kept of a document. -/
def ofText? (s : String) : Option Json := do
  let cs := dropMark s.toList
  let statements ← statements? (cs.length + 1) cs
  let (entries, later) := sections statements
  (← assemble entries later).toJson?

end Switchboard.Toml
