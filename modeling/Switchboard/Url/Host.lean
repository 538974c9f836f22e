import Switchboard.Url.Address
import Switchboard.Url.Basic

/-!
# Switchboard.Url.Host

Hosts and ports in normal form: names in lower case, addresses in one spelling, the
usual port left out.

* `Url.host?` — the host that a text names;
* `Url.site?` — cuts a user, a host and a port off.

What a name outside ASCII is called there, and which names may start a part with `xn--`, is in
the tables of a standard, which are not part of this library.
-/

namespace Switchboard.Url

/-! ## Hosts -/

/-- Characters that would end a host or change its meaning. -/
def hostStops : List Char :=
  [' ', '#', '/', ':', '<', '>', '?', '@', '[', '\\', ']', '^', '|']

/-- Characters that no name of a host may hold. -/
def isForbidden (c : Char) : Bool :=
  c.toNat < 0x20 || c.toNat = 0x7F || c == '%' || hostStops.contains c

/-- What names that are not plain are called in ASCII, if they are names. -/
abbrev Idna := String → Option String

/-- Whether a part of a name stands for something outside ASCII. -/
def isPunycode (part : List Char) : Bool := "xn--".toList.isPrefixOf (part.map Char.toLower)

/-- A name that needs no tables. -/
def isPlainName (cs : List Char) : Bool :=
  (cs.all fun c => c.toNat < 0x80) && !(cs.splitOn '.').any isPunycode

/-- A name in ASCII and in lower case. -/
def inAscii? (idna : Idna) (name : String) : Option String :=
  if name.toList.any isForbidden then none
  else if isPlainName name.toList then some (String.ofList (name.toList.map Char.toLower))
  else idna name

/-- A host between brackets. -/
def bracketed? (cs : List Char) : Option String :=
  match cs.reverse with
  | ']' :: r => (Address.v6? r.reverse).map Address.renderV6
  | _ => none

/-- A name, or four bytes if it ends in a number. -/
def domain? (idna : Idna) (cs : List Char) : Option String := do
  let name ← inAscii? idna (← (Text.decode (Percent.decode cs)).toOption)
  if name = "" then none
  else if Address.endsInNumber name.toList then (Address.v4? name.toList).map Address.renderV4
  else some name

/-- A host under a scheme that is not special: a text of its own. -/
def foreign? (cs : List Char) : Option String :=
  if cs.any fun c => c.toNat = 0 || hostStops.contains c then none
  else some (String.ofList (Percent.encode Percent.isPrintable cs))

/-- The host that a text names under a scheme. -/
def host? (idna : Idna) (special : Bool) : List Char → Option String
  | '[' :: r => bracketed? r
  | cs => if special then domain? idna cs else foreign? cs

/-! ## Cutting a text -/

/-- Splits at the first character that satisfies a test, which starts the second part. -/
def splitBefore (p : Char → Bool) (cs : List Char) : List Char × List Char :=
  (cs.takeWhile fun c => !p c, cs.dropWhile fun c => !p c)

/-- Splits off what follows the first occurrence of a character. -/
def splitAfter (c : Char) (cs : List Char) : List Char × Option (List Char) :=
  match splitBefore (· = c) cs with
  | (before, []) => (before, none)
  | (before, _ :: after) => (before, some after)

/-- Splits at the last occurrence of a character, if there is one. -/
def splitLast? (c : Char) : List Char → Option (List Char × List Char)
  | [] => none
  | d :: r => match splitLast? c r with
    | some (before, after) => some (d :: before, after)
    | none => if d = c then some ([], r) else none

/-! ## Cutting users, hosts and ports off -/

/-- What separates segments. -/
def isSlash (special : Bool) (c : Char) : Bool := c = '/' || (special && c = '\\')

/-- Cuts off what stands before the last `@`, if there is one before the path. -/
def cutUser (special : Bool) (cs : List Char) : Option (List Char) × List Char :=
  let (front, path) := splitBefore (isSlash special) cs
  match splitLast? '@' front with
  | some (user, place) => (some user, place ++ path)
  | none => (none, cs)

/-- Splits a host off, up to a slash or to a colon outside brackets. -/
def splitHost (special : Bool) : Bool → List Char → List Char × List Char
  | _, [] => ([], [])
  | inside, c :: r =>
    if isSlash special c ∨ (c = ':' ∧ !inside) then ([], c :: r)
    else
      let inside := c = '[' || (inside && c ≠ ']')
      let (h, rest) := splitHost special inside r
      (c :: h, rest)

/-- A port, unless it is empty or the usual one. -/
def port? (scheme : String) (cs : List Char) : Option (Option Nat) :=
  if cs.isEmpty then some none
  else do
    let n ← Address.ofDigits? 10 cs
    if n < UInt16.size then
      some (if specialPorts.lookup scheme = some n then none else some n)
    else none

/-- Cuts a port off.  A slash of either kind may follow it. -/
def cutPort? (scheme : String) (cs : List Char) : Option (Option Nat × List Char) := do
  let (digits, rest) := (cs.takeWhile Char.isDigit, cs.dropWhile Char.isDigit)
  if rest.head?.all (isSlash true) then
    let port ← port? scheme digits
    return (port, rest)
  else none

/-- Who a URL is for, and where that is. -/
structure Site where
  user : String
  password : Option String
  host : String
  port : Option Nat
  deriving DecidableEq, Repr, Inhabited

/-- A user with a password, unless that is empty. -/
def Site.of (user : Option (List Char)) (host : String) (port : Option Nat) : Site :=
  let escaped (cs : List Char) : String := String.ofList (Percent.encode Percent.inUser cs)
  let (name, password) := splitAfter ':' (user.getD [])
  { user := escaped name, password := (password.filter (!·.isEmpty)).map escaped, host, port }

/-- The user, the host and the port of a URL, and the path after them. -/
def site? (idna : Idna) (scheme : String) (cs : List Char) : Option (Site × List Char) := do
  let special := isSpecial scheme
  let (user, cs) := cutUser special cs
  match splitHost special false cs with
  | ([], rest) =>
    if special ∨ user.isSome ∨ rest.head? = some ':' then none
    else return (.of user "" none, rest)
  | (h, rest) => do
    let host ← host? idna special h
    let (port, path) ← match rest with
      | ':' :: r => cutPort? scheme r
      | r => some (none, r)
    return (.of user host port, path)

end Switchboard.Url
