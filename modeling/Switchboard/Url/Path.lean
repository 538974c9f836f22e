import Switchboard.Url.Host

/-!
# Switchboard.Url.Path

Paths in normal form: dot segments resolved, and what may not stand in a segment
escaped.

* `Url.resolve` — segments with the dot segments resolved;
* `Url.onMachine` — the path of a `file` URL, which may start with a drive.

A dot segment never leaves a drive, whatever the scheme is.
-/

namespace Switchboard.Url

/-! ## Segments -/

/-- Whether a segment stands for the place where it is. -/
def isHere (cs : List Char) : Bool :=
  [".", "%2e"].contains (String.ofList (cs.map Char.toLower))

/-- Whether a segment stands for the place above. -/
def isUp (cs : List Char) : Bool :=
  ["..", ".%2e", "%2e.", "%2e%2e"].contains (String.ofList (cs.map Char.toLower))

/-- Whether a text is a drive: a letter and a colon, or a bar in place of it. -/
def isDrive : List Char → Bool
  | [c, d] => c.isAlpha && (d == ':' || d == '|')
  | _ => false

/-- The segments before the last one, the last one first.  A drive is not left, be
it alone in its segment or before a backslash. -/
def leave : List String → List String
  | [] => []
  | s :: done => if isDrive (s.toList.takeWhile (· ≠ '\\')) then s :: done else done

/-- A segment as it is kept after others.  Of a `file` URL the first one may be a
drive, which is kept with a colon. -/
def keep (file : Bool) (done : List String) (s : List Char) : String :=
  if file ∧ done.isEmpty ∧ isDrive s then String.ofList (s.take 1 ++ [':'])
  else String.ofList (Percent.encode Percent.inPath s)

/-- Segments with the dot segments resolved; `done` are those before, the last one
first.  A dot segment at the end leaves an empty one. -/
def resolve (file : Bool) : List String → List (List Char) → List String
  | done, [] => done.reverse
  | done, s :: rest =>
    let ending := if rest.isEmpty then [""] else []
    if isUp s then resolve file (ending ++ leave done) rest
    else if isHere s then resolve file (ending ++ done) rest
    else resolve file (keep file done s :: done) rest

/-- The segments of a path after its first slash. -/
def segmentsOf (special : Bool) (cs : List Char) : List String :=
  resolve false [] (cs.splitOnP (isSlash special))

/-- The path of a URL that has a host: a special scheme has at least one segment. -/
def pathAfterHost (special : Bool) : List Char → UrlPath
  | [] => .segments (if special then [""] else [])
  | c :: r => .segments (segmentsOf special (if isSlash special c then r else c :: r))

/-! ## Paths on a machine -/

/-- Segments without the empty ones at the front; one segment stays. -/
def trimFront (names : List String) : List String :=
  match names.dropWhile (· = "") with
  | [] => [""]
  | kept => kept

/-- A path on a machine.  A path that starts with a drive is on the own one. -/
def onMachine (host : String) (cs : List Char) : Option Site × UrlPath :=
  let names := resolve true [] (cs.splitOnP (isSlash true))
  let host := if names.head?.any fun s => isDrive s.toList then "" else host
  (some (.of none host none), .segments (trimFront names))

end Switchboard.Url
