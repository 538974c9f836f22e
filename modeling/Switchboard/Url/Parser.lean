import Switchboard.Url.Path

/-!
# Switchboard.Url.Parser

Reading an absolute URL into normal form: the scheme in lower case, then a user, a host and a
path, a query and a fragment, each escaped where it has to be.

* `Url.ofText?` — the URL that a text spells.

A text that is relative is refused.
-/

namespace Switchboard.Url

/-! ## Cutting a text -/

/-- Drops what may stand around a URL, and the line ends and tabs within. -/
def clean (cs : List Char) : List Char :=
  let isEdge (c : Char) : Bool := c.toNat ≤ 0x20
  let inner := ((cs.dropWhile isEdge).reverse.dropWhile isEdge).reverse
  inner.filter fun c => c ≠ '\t' ∧ c ≠ '\n' ∧ c ≠ '\r'

/-- The scheme of a text in lower case, and what follows the colon. -/
def scheme? (cs : List Char) : Option (String × List Char) :=
  match cs with
  | c :: _ =>
    if c.isAlpha then
      match splitBefore (!isSchemeChar ·) cs with
      | (name, ':' :: r) => some (String.ofList (name.map Char.toLower), r)
      | _ => none
    else none
  | [] => none

/-! ## URLs -/

/-- A site with a path after it. -/
def afterSlashes? (idna : Idna) (scheme : String) (cs : List Char) :
    Option (Option Site × UrlPath) := do
  let (site, path) ← site? idna scheme cs
  return (some site, pathAfterHost (isSpecial scheme) path)

/-- The host of a `file` URL and the path after it.  The own machine needs no host,
and a drive is none. -/
def fileHost? (idna : Idna) (cs : List Char) : Option (String × List Char) := do
  let (h, path) := splitBefore (isSlash true) cs
  if isDrive h then return ("", cs)
  else if h.isEmpty then return ("", path)
  else
    let host ← host? idna true h
    return if host = "localhost" then ("", path) else (host, path.drop 1)

/-- What follows the scheme of a `file` URL: a host after two slashes, or a path. -/
def afterFile? (idna : Idna) (cs : List Char) : Option (Option Site × UrlPath) :=
  match cs.splitAt 2 with
  | ([a, b], r) =>
    if isSlash true a && isSlash true b then
      (fileHost? idna r).map fun (h, path) => onMachine h path
    else some (onMachine "" (dropSlash cs))
  | _ => some (onMachine "" (dropSlash cs))
where
  dropSlash : List Char → List Char
    | c :: r => if isSlash true c then r else c :: r
    | [] => []

/-- Site and path, from what follows the scheme up to the query. -/
def hierarchy? (idna : Idna) (scheme : String) (cs : List Char) :
    Option (Option Site × UrlPath) :=
  if scheme = "file" then afterFile? idna cs
  else if isSpecial scheme then afterSlashes? idna scheme (cs.dropWhile (isSlash true))
  else match cs with
    | '/' :: '/' :: r => afterSlashes? idna scheme r
    | '/' :: r => some (none, .segments (segmentsOf false r))
    | r => some (none, .flat (String.ofList (Percent.encode Percent.isPrintable r)))

/-- The URL that a text spells. -/
def ofText? (idna : Idna) (s : String) : Option Url := do
  let (scheme, rest) ← scheme? (clean s.toList)
  let (rest, fragment) := splitAfter '#' rest
  let (rest, query) := splitAfter '?' rest
  let (site, path) ← hierarchy? idna scheme rest
  let inQuery := if isSpecial scheme then Percent.inSpecialQuery else Percent.inQuery
  return {
    scheme, path
    user := (site.map (·.user)).getD "", password := site.bind (·.password)
    host := site.map (·.host), port := site.bind (·.port)
    query := query.map fun q => String.ofList (Percent.encode inQuery q)
    fragment := fragment.map fun f => String.ofList (Percent.encode Percent.inFragment f) }

end Switchboard.Url
