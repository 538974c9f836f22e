import Switchboard.Json.Number
import Switchboard.Text.Hex

/-!
# Switchboard.Json.Token

The words of a JSON text.  A place where no word can be read becomes the word
`bad`, and reading ends there: what stands before it is still known, which is
what a reader needs that reports the first fault of any kind.
-/

namespace Switchboard.Json

inductive Token where
  | openArray
  | closeArray
  | openObject
  | closeObject
  | comma
  | colon
  | text (s : String)
  /-- A number, a truth value or null. -/
  | leaf (j : Json)
  | bad
  deriving Repr, Inhabited

/-! ## Strings -/

/-- Four hexadecimal digits. -/
def hex4? (a b c d : Char) : Option Nat := do
  let w ← Text.hexDigit? a
  let x ← Text.hexDigit? b
  let y ← Text.hexDigit? c
  let z ← Text.hexDigit? d
  return ((w * 16 + x) * 16 + y) * 16 + z

/-- The character that a letter after a backslash stands for. -/
def unescape? (c : Char) : Option Char :=
  if c = '"' ∨ c = '\\' ∨ c = '/' then some c
  else if c = 'b' then some (Char.ofNat 0x08)
  else if c = 'f' then some (Char.ofNat 0x0C)
  else if c = 'n' then some '\n'
  else if c = 'r' then some '\r'
  else if c = 't' then some '\t'
  else none

/-- Reads a string after its opening quote: the characters and what follows the
closing quote.  A code unit of a surrogate pair that stands alone is refused. -/
def scanString : List Char → Option (List Char × List Char)
  | [] => none
  | '"' :: r => some ([], r)
  | '\\' :: 'u' :: a :: b :: c :: d :: r => do
    let unit ← hex4? a b c d
    if 0xDC00 ≤ unit ∧ unit ≤ 0xDFFF then none
    else if 0xD800 ≤ unit ∧ unit ≤ 0xDBFF then
      match r with
      | '\\' :: 'u' :: a' :: b' :: c' :: d' :: r' => do
        let low ← hex4? a' b' c' d'
        if 0xDC00 ≤ low ∧ low ≤ 0xDFFF then
          let (s, rest) ← scanString r'
          some (Char.ofNat (0x10000 + (unit - 0xD800) * 0x400 + (low - 0xDC00)) :: s, rest)
        else none
      | _ => none
    else
      let (s, rest) ← scanString r
      some (Char.ofNat unit :: s, rest)
  | '\\' :: e :: r => do
    let c ← unescape? e
    let (s, rest) ← scanString r
    some (c :: s, rest)
  | c :: r =>
    if c.toNat < 0x20 then none
    else do
      let (s, rest) ← scanString r
      some (c :: s, rest)

/-! ## Numbers -/

/-- Splits leading digits off. -/
def scanDigits (cs : List Char) : List Char × List Char :=
  (cs.takeWhile Char.isDigit, cs.dropWhile Char.isDigit)

/-- Reads the digits before the point: one zero, or digits that start with no zero. -/
def scanWhole (cs : List Char) : Option (List Char × List Char) :=
  match scanDigits cs with
  | ([], _) => none
  | ('0' :: _ :: _, _) => none
  | r => some r

/-- Reads a point and the digits after it, if there is a point. -/
def scanFraction : List Char → Option (Option (List Char) × List Char)
  | '.' :: cs => match scanDigits cs with
    | ([], _) => none
    | (ds, r) => some (some ds, r)
  | cs => some (none, cs)

/-- The number that decimal digits spell. -/
def digitsValue (ds : List Char) : Nat := ds.foldl (fun n d => n * 10 + digitValue d) 0

/-- Reads the digits of an exponent. -/
def scanPowerDigits (negative : Bool) (cs : List Char) : Option (Option Int × List Char) :=
  match scanDigits cs with
  | ([], _) => none
  | (ds, r) =>
    let n := (digitsValue ds : Int)
    some (some (if negative then -n else n), r)

/-- Reads an exponent, if there is one. -/
def scanPower : List Char → Option (Option Int × List Char)
  | c :: cs =>
    if c = 'e' ∨ c = 'E' then
      match cs with
      | '+' :: r => scanPowerDigits false r
      | '-' :: r => scanPowerDigits true r
      | r => scanPowerDigits false r
    else some (none, c :: cs)
  | [] => some (none, [])

/-- Reads a number after its sign. -/
def scanNumber (negative : Bool) (cs : List Char) : Option (Json × List Char) := do
  let (whole, r) ← scanWhole cs
  let (fraction, r) ← scanFraction r
  let (power, r) ← scanPower r
  let j ← Numeral.value ⟨negative, whole, fraction, power⟩
  return (j, r)

/-! ## Words -/

/-- The blanks that may stand between words. -/
def isBlank (c : Char) : Bool := c == ' ' || c == '\t' || c == '\n' || c == '\r'

/-- The word at the front and what follows it. -/
def scanToken : List Char → Token × List Char
  | '[' :: r => (.openArray, r)
  | ']' :: r => (.closeArray, r)
  | '\x7b' :: r => (.openObject, r)
  | '\x7d' :: r => (.closeObject, r)
  | ',' :: r => (.comma, r)
  | ':' :: r => (.colon, r)
  | 'n' :: 'u' :: 'l' :: 'l' :: r => (.leaf .null, r)
  | 't' :: 'r' :: 'u' :: 'e' :: r => (.leaf (.bool true), r)
  | 'f' :: 'a' :: 'l' :: 's' :: 'e' :: r => (.leaf (.bool false), r)
  | '"' :: r => match scanString r with
    | some (s, r') => (.text (String.ofList s), r')
    | none => (.bad, [])
  | '-' :: r => match scanNumber true r with
    | some (j, r') => (.leaf j, r')
    | none => (.bad, [])
  | r => match scanNumber false r with
    | some (j, r') => (.leaf j, r')
    | none => (.bad, [])

/-- The words of a text, `fuel` of them at most. -/
def scanTokens : Nat → List Char → List Token
  | 0, _ => []
  | fuel + 1, cs =>
    match cs.dropWhile isBlank with
    | [] => []
    | c :: r =>
      let (t, rest) := scanToken (c :: r)
      match t with
      | .bad => [.bad]
      | t => t :: scanTokens fuel rest

/-- The words of a text.  A word takes a character at least, so that the length
of the text bounds their number. -/
def tokens (s : String) : List Token :=
  let cs := s.toList
  scanTokens cs.length cs

end Switchboard.Json
