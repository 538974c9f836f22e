import Switchboard.Url.Basic

/-!
# Switchboard.Session.Target

Where a session may connect to.  A target is a host, maybe with a port and with more
around it; whether the host is there shows only when someone connects.
-/

namespace Switchboard.Session

/-- How many characters a scheme may have. -/
def maxScheme : Nat := 64

/-- Characters that no path has. -/
def isOutsidePath (c : Char) : Bool := c.toNat ≤ 0x20 || ['<', '>', '\x60', '\x7F'].contains c

/-- Characters that no query has. -/
def isOutsideQuery (c : Char) : Bool := c.toNat ≤ 0x20 || ['<', '>', '"', '\x7F'].contains c

/-- Whether a text is a path, maybe with a query.  A fragment does not count. -/
def isPathAndQuery (cs : List Char) : Bool :=
  let (path, query) := (cs.takeWhile (· ≠ '#')).span (· ≠ '?')
  !path.any isOutsidePath && !query.any isOutsideQuery

/-- Whether a text names a host to connect to.  Without a scheme it is a host and
nothing more; a star alone stands for a server as a whole and names none. -/
def isTarget (url : String) : Bool :=
  let cs := url.toList
  url.utf8ByteSize ≤ Authority.maxBytes && match cs.span Url.isSchemeChar with
    | (scheme, ':' :: '/' :: '/' :: rest) =>
      let (authority, path) := rest.span (· ∉ ['/', '?', '#'])
      scheme.length ≤ maxScheme && Authority.isValid authority && isPathAndQuery path
    | _ => cs ≠ ['*'] && Authority.isValid cs

end Switchboard.Session
