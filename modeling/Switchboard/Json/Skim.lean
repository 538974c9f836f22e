import Switchboard.Json.Decode

/-!
# Switchboard.Json.Skim

Reading a record out of a text without reading the fields that it does not declare.

* `skipValue` — passes over a value;
* `fields?` — cuts the object that a text holds into its fields;
* `Record.ofBytes` — reads a record from a text.

What is passed over only has to look like a value.  There a string may hold half of
a surrogate pair or bytes that are no character, a number may be too large, and
nothing nests too deep.  So the text is taken byte by byte here, each byte as the
character of its number, and only what is kept is read as a text.
-/

namespace Switchboard.Json

/-! ## Passing over -/

/-- Passes over a string after its opening quote. -/
def skipString : List Char → Option (List Char)
  | [] => none
  | '"' :: r => some r
  | '\\' :: 'u' :: a :: b :: c :: d :: r => do
    let _ ← hex4? a b c d
    skipString r
  | '\\' :: e :: r => do
    let _ ← unescape? e
    skipString r
  | c :: r => if c.toNat < 0x20 then none else skipString r

/-- Passes over a number after its sign. -/
def skipNumber (cs : List Char) : Option (List Char) := do
  let (_, r) ← scanWhole cs
  let (_, r) ← scanFraction r
  let (_, r) ← scanPower r
  return r

/-- The word at the front, without what it means if it is a string or a number. -/
def skimToken : List Char → Token × List Char
  | '"' :: r => match skipString r with
    | some r' => (.text "", r')
    | none => (.bad, [])
  | '-' :: r => number r
  | c :: r => if c.isDigit then number (c :: r) else scanToken (c :: r)
  | [] => (.bad, [])
where
  number (r : List Char) : Token × List Char :=
    match skipNumber r with
    | some r' => (.leaf .null, r')
    | none => (.bad, [])

/-- Passes over words until a value is whole, `fuel` of them at most. -/
def skipFrom : Nat → Expect → List Frame → List Char → Option (List Char)
  | 0, _, _, _ => none
  | fuel + 1, expect, stack, cs =>
    let (t, r) := skimToken (cs.dropWhile isBlank)
    match step stack expect t with
    | .go e s => skipFrom fuel e s r
    | .done _ => some r
    | .fault => none

/-- Passes over a value.  A word takes a character at least, so that the length of
the text bounds their number. -/
def skipValue (cs : List Char) : Option (List Char) := skipFrom cs.length .value [] cs

/-! ## Cutting -/

/-- The bytes of a stretch of text, up to the place where `rest` follows. -/
def bytesUpTo (rest cs : List Char) : Bytes :=
  (cs.take (cs.length - rest.length)).map fun c => c.toNat.toUInt8

/-- Cuts the key and the value of a field off. -/
def cutField (cs : List Char) : Option ((Bytes × Bytes) × List Char) :=
  match cs.dropWhile isBlank with
  | '"' :: r => do
    let after ← skipString r
    match after.dropWhile isBlank with
    | ':' :: v => do
      let rest ← skipValue v
      return ((bytesUpTo after ('"' :: r), bytesUpTo rest v), rest)
    | _ => none
  | _ => none

/-- Cuts fields off up to the end of an object, `fuel` of them at most. -/
def cutFields : Nat → List Char → Option (List (Bytes × Bytes) × List Char)
  | 0, _ => none
  | fuel + 1, cs => do
    let (f, r) ← cutField cs
    match r.dropWhile isBlank with
    | ',' :: r => do
      let (fs, r) ← cutFields fuel r
      return (f :: fs, r)
    | '\x7d' :: r => some ([f], r)
    | _ => none

/-- Keys and values of the object that a text holds, as they stand there; `none`
when it holds no object. -/
def fields? (bs : Bytes) : Option (List (Bytes × Bytes)) := do
  let cs := bs.map fun b => Char.ofNat b.toNat
  let (fs, r) ← match cs.dropWhile isBlank with
    | '\x7b' :: r => match r.dropWhile isBlank with
      | '\x7d' :: r => some ([], r)
      | r => cutFields r.length r
    | _ => none
  if r.all isBlank then some fs else none

/-! ## Records -/

/-- The value that some bytes hold, with fields as they stand there. -/
def asWritten? (bs : Bytes) : Option Json :=
  match (Text.decode bs).map scan with
  | .ok (.whole j []) => some j
  | _ => none

namespace Record

/-- Reads the fields that a record declares; the values of others are dropped. -/
def declared? (keys : List String) : List (Bytes × Bytes) → Option (List (String × Json))
  | [] => some []
  | (k, v) :: rest => do
    let .str key ← asWritten? k | none
    if key ∈ keys then do
      let j ← asWritten? v
      let fields ← declared? keys rest
      return (key, j) :: fields
    else declared? keys rest

/-- Reads a record that a text holds; `none` when the text is at fault. -/
def ofBytes (name : String) (r : Record α) (bs : Bytes) : Option (Except DecodeError α) :=
  match fields? bs with
  | some fields => (declared? (r.fields.map (·.key)) fields).map fun fs => r.decode name (.obj fs)
  | none => (asWritten? bs).map (r.decode name)

end Record
end Switchboard.Json
