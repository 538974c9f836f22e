import Switchboard.Text.Quoted
import Switchboard.Url.Percent

/-!
# Switchboard.Url.Address

Hosts that are numbers: four bytes in dotted decimal, and eight groups of sixteen
bits between brackets.  Both are read in every spelling and written in one.
-/

namespace Switchboard.Address

/-! ## Four bytes -/

/-- The base that a number is written in, and its digits. -/
def base : List Char → Nat × List Char
  | '0' :: 'x' :: r | '0' :: 'X' :: r => (16, r)
  | '0' :: c :: r => (8, c :: r)
  | r => (10, r)

/-- The number that digits spell in a base, if they are digits of it. -/
def ofDigits? (base : Nat) : List Char → Option Nat := go 0
where
  go (n : Nat) : List Char → Option Nat
    | [] => some n
    | c :: r => match Percent.digit? c with
      | some d => if d < base then go (n * base + d) r else none
      | none => none

/-- One part of an address; a base without digits is zero. -/
def part? (cs : List Char) : Option Nat :=
  if cs.isEmpty then none
  else
    let (b, ds) := base cs
    ofDigits? b ds

/-- The parts of a host between points, without an empty one at the end. -/
def parts (cs : List Char) : List (List Char) :=
  match (cs.splitOn '.').reverse with
  | [] :: p :: rest => (p :: rest).reverse
  | ps => ps.reverse

/-- Whether the last part of a host is a number, so that the host is an address. -/
def endsInNumber (cs : List Char) : Bool :=
  match (parts cs).getLast? with
  | none => false
  | some p => !p.isEmpty && (p.all Char.isDigit || (part? p).isSome)

/-- The address of four bytes that a host spells: each part but the last is one
byte, and the last one fills what is left. -/
def v4? (cs : List Char) : Option Nat := do
  let ns ← (parts cs).mapM part?
  if ns.length ≤ 4 then
    let leading := ns.dropLast
    let last ← ns.getLast?
    if leading.all (· < 256) ∧ last < 1 <<< (8 * (5 - ns.length)) then
      some (leading.zipIdx.foldl (fun acc p => acc + p.1 <<< (8 * (3 - p.2))) last)
    else none
  else none

/-- Four bytes in dotted decimal. -/
def renderV4 (n : Nat) : String :=
  ".".intercalate ([n >>> 24 % 256, n >>> 16 % 256, n >>> 8 % 256, n % 256].map toString)

/-! ## Eight groups -/

/-- A group of up to four hexadecimal digits. -/
def group? (cs : List Char) : Option Nat :=
  if cs.isEmpty ∨ 4 < cs.length then none else ofDigits? 16 cs

/-- A byte in decimal without needless zeros. -/
def byte? (cs : List Char) : Option Nat :=
  match cs with
  | [] => none
  | ['0'] => some 0
  | '0' :: _ => none
  | ds => do
    let n ← ofDigits? 10 ds
    if n < 256 then some n else none

/-- Two groups written as four bytes in dotted decimal. -/
def dotted? (cs : List Char) : Option (List Nat) := do
  match ← (cs.splitOn '.').mapM byte? with
  | [a, b, c, d] => return [a * 256 + b, c * 256 + d]
  | _ => none

/-- Groups between colons; the last two may be in dotted decimal where `tail` is set. -/
def groups? (tail : Bool) : List (List Char) → Option (List Nat)
  | [] => some []
  | [g] => match group? g with
    | some n => some [n]
    | none => if tail then dotted? g else none
  | g :: rest => do
    let n ← group? g
    let ns ← groups? tail rest
    return n :: ns

/-- The groups of a text between colons; an empty text has none. -/
def groupsOf? (tail : Bool) (cs : List Char) : Option (List Nat) :=
  if cs.isEmpty then some [] else groups? tail (cs.splitOn ':')

/-- Splits at the first pair of colons. -/
def splitPair : List Char → Option (List Char × List Char)
  | [] => none
  | ':' :: ':' :: r => some ([], r)
  | c :: r => (splitPair r).map fun (a, b) => (c :: a, b)

/-- The eight groups that the text between brackets spells; a pair of colons stands
for one or more groups of zeros. -/
def v6? (cs : List Char) : Option (List Nat) := do
  match splitPair cs with
  | none => do
    let ns ← groupsOf? true cs
    if ns.length = 8 then some ns else none
  | some (a, b) => do
    let before ← groupsOf? false a
    let after ← groupsOf? true b
    let n := before.length + after.length
    if n ≤ 7 then some (before ++ List.replicate (8 - n) 0 ++ after) else none

/-- How many zeros there are at the front. -/
def zeros (ns : List Nat) : Nat := (ns.takeWhile (· = 0)).length

/-- Where the longest run of zeros starts, and how long it is; the first one of
several. -/
def longestRun : Nat → List Nat → Nat × Nat
  | i, [] => (i, 0)
  | i, n :: rest =>
    let here := zeros (n :: rest)
    let later := longestRun (i + 1) rest
    if later.2 ≤ here then (i, here) else later

def joinGroups (ns : List Nat) : String := ":".intercalate (ns.map Text.hex)

/-- Eight groups in brackets, with the longest run of at least two zeros left out. -/
def renderV6 (ns : List Nat) : String :=
  let (start, width) := longestRun 0 ns
  if width < 2 then "[" ++ joinGroups ns ++ "]"
  else "[" ++ joinGroups (ns.take start) ++ "::" ++ joinGroups (ns.drop (start + width)) ++ "]"

end Switchboard.Address
