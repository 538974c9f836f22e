import Switchboard.Url.Authority
import Switchboard.Url.Form

/-!
# Switchboard.Url.Basic

Absolute URLs in normal form.

* `Url.text` — the URL as it is written;
* `Url.isSendable` — whether a request can name the URL;
* `Url.withPairs` — the URL with pairs added to its query;
* `Url.login?`, `Url.withoutLogin` — the user that the URL names, and the URL without one.
-/

namespace Switchboard

/-- What stands between the host and the query. -/
inductive UrlPath where
  /-- Segments, each after a slash. -/
  | segments (names : List String)
  /-- A text that is no hierarchy. -/
  | flat (text : String)
  deriving DecidableEq, Repr, Inhabited

structure Url where
  scheme : String
  /-- The user before the host, escaped; it may be empty. -/
  user : String := ""
  password : Option String := none
  /-- The host, if the scheme is followed by one; it may be empty. -/
  host : Option String
  /-- The port, unless it is the usual one of the scheme. -/
  port : Option Nat
  path : UrlPath
  query : Option String
  fragment : Option String
  deriving DecidableEq, Repr, Inhabited

namespace Url

/-- Characters of a scheme. -/
def isSchemeChar (c : Char) : Bool := c.isAlphanum || c == '+' || c == '-' || c == '.'

/-- The schemes that have a host, with the usual port of each. -/
def specialPorts : List (String × Nat) :=
  [("http", 80), ("https", 443), ("ws", 80), ("wss", 443), ("ftp", 21)]

/-- Whether URLs with a scheme have a host and a hierarchy. -/
def isSpecial (scheme : String) : Bool :=
  scheme = "file" || (specialPorts.lookup scheme).isSome

/-- Whether there is a host to connect to. -/
def hasHost (u : Url) : Bool :=
  match u.host with
  | some h => h ≠ ""
  | none => false

/-- A path as it is written; without a host before it, it must not look like one. -/
def pathText (u : Url) : String :=
  match u.path with
  | .flat text => text
  | .segments names =>
    let text := String.join (names.map ("/" ++ ·))
    match u.host, names with
    | none, "" :: _ :: _ => "/." ++ text
    | _, _ => text

/-- The user as it is written, with what separates it from the host. -/
def userText (u : Url) : String :=
  if u.user = "" ∧ u.password = none then ""
  else u.user ++ (u.password.map (":" ++ ·)).getD "" ++ "@"

/-- User, host and port as they are written; without a host there is nothing. -/
def authority (u : Url) : String :=
  u.userText ++ u.host.getD "" ++ (match u.port with
    | some n => ":" ++ toString n
    | none => "")

/-- User, host and port with the slashes before them. -/
def authorityText (u : Url) : String :=
  if u.host.isSome then "//" ++ u.authority else ""

/-- The URL without its fragment, as it is sent. -/
def target (u : Url) : String :=
  u.scheme ++ ":" ++ u.authorityText ++ u.pathText ++
    (match u.query with
      | some q => "?" ++ q
      | none => "")

def text (u : Url) : String :=
  u.target ++ (match u.fragment with
    | some f => "#" ++ f
    | none => "")

/-- Whether a request can name the URL: a host may hold characters that no authority
has, and a URL may be too long. -/
def isSendable (u : Url) : Bool :=
  Authority.isValid u.authority.toList && u.text.utf8ByteSize ≤ Authority.maxBytes

/-- The URL with pairs added to its query; without any it stays as it is. -/
def withPairs (u : Url) (pairs : List (String × String)) : Url :=
  if pairs.isEmpty then u
  else { u with query := some (String.ofList (Form.append (u.query.getD "").toList pairs)) }

/-! ## Users -/

/-- The text that a part of a URL spells, if it is one. -/
def spelled? (part : String) : Option String :=
  (Text.decode (Percent.decode part.toList)).toOption

/-- The user and the password that a URL names, unless they are no texts or there are none. -/
def login? (u : Url) : Option (String × Option String) := do
  let user ← spelled? u.user
  let password := u.password.bind spelled?
  if user ≠ "" ∨ password.isSome then some (user, password) else none

/-- The URL without the user that it names, if it names one. -/
def withoutLogin (u : Url) : Url :=
  if u.login?.isSome then { u with user := "", password := none } else u

end Url
end Switchboard
