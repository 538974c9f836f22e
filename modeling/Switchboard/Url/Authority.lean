/-!
# Switchboard.Url.Authority

The authority of a URL as a request has to have it: a host, maybe a user before it
and a port after it.

* `scan` — goes over an authority and counts what may stand in it only so often;
* `isValid` — whether a text is an authority.

There is one pair of brackets at most, one colon outside them, and no percent sign
outside them.  A user ends with `@`, and what stands in it does not count.
-/

namespace Switchboard.Authority

/-- How many bytes a URL in a request may have. -/
def maxBytes : Nat := UInt16.size - 2

/-- Characters of an authority. -/
def isMember (c : Char) : Bool :=
  c.isAlphanum || "!$&'()*+,-.:;=@[]_~%".toList.contains c

/-- What is known after a part of an authority. -/
structure Progress where
  colons : Nat := 0
  opened : Bool := false
  closed : Bool := false
  /-- There is a percent sign that nothing accounts for yet. -/
  percent : Bool := false
  /-- The last character ends a user. -/
  afterUser : Bool := false
  deriving DecidableEq, Repr

/-- How many colons a part may have: those of an address in brackets, and one more. -/
def maxColons : Nat := 8

/-- What one more character leads to. -/
def step (p : Progress) (c : Char) : Option Progress :=
  let p := { p with afterUser := false }
  if !isMember c then none
  else if c = ':' then
    if p.colons < maxColons then some { p with colons := p.colons + 1 } else none
  else if c = '[' then
    if p.percent || p.opened then none else some { p with opened := true }
  else if c = ']' then
    if p.opened && !p.closed then
      some { p with closed := true, colons := 0, percent := false }
    else none
  else if c = '@' then some { p with colons := 0, percent := false, afterUser := true }
  else if c = '%' then some { p with percent := true }
  else some p

def scan (cs : List Char) : Option Progress := cs.foldlM step {}

/-- Whether a text is an authority. -/
def isValid (cs : List Char) : Bool :=
  !cs.isEmpty && match scan cs with
    | some p => p.opened == p.closed && p.colons ≤ 1 && !p.percent && !p.afterUser
    | none => false

end Switchboard.Authority
