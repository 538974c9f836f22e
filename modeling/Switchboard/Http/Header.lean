import Switchboard.Keyed

/-!
# Switchboard.Http.Header

The headers of a request or a response: values under names, several under one name
if need be.  Names are kept in lower case, so that they can be written in any.

* `name?` — the name that a text spells;
* `isValue` — whether a text may be a value;
* `insert`, `append` — put a value in place of those of its name, or after them.
-/

namespace Switchboard.Http

/-- Characters of a name. -/
def isToken (c : Char) : Bool :=
  c.isAlphanum ||
    ['!', '#', '$', '%', '&', '\'', '*', '+', '-', '.', '^', '_', '\x60', '|', '~'].contains c

/-- How long a name may be. -/
def maxNameLength : Nat := 65535

/-- The name that a text spells, in lower case. -/
def name? (s : String) : Option String :=
  let cs := s.toList
  if cs.isEmpty ∨ maxNameLength < cs.length ∨ !cs.all isToken then none
  else some (String.ofList (cs.map Char.toLower))

/-- Whether a text may be the value of a header: no controls but a tab. -/
def isValue (s : String) : Bool :=
  s.toList.all fun c => (0x20 ≤ c.toNat && c.toNat ≠ 0x7F) || c == '\t'

/-- A value that is all visible ASCII, blanks and tabs. -/
def isPlainValue (s : String) : Bool :=
  s.toList.all fun c => (0x20 ≤ c.toNat && c.toNat < 0x7F) || c == '\t'

/-- Values by name, in order under each name. -/
abbrev Headers := Keyed (List String)

namespace Headers

/-- The values of a name. -/
def values (name : String) (hs : Headers) : List String := (Keyed.get? name hs).getD []

/-- Puts a value in place of all values of a name. -/
def insert (name value : String) (hs : Headers) : Headers := Keyed.set name [value] hs

/-- Puts a value after those of a name. -/
def append (name value : String) (hs : Headers) : Headers :=
  Keyed.set name (hs.values name ++ [value]) hs

/-- Puts all values of some headers after those that are there. -/
def appendAll (hs more : Headers) : Headers :=
  more.foldl (fun hs h => h.2.foldl (fun hs v => append h.1 v hs) hs) hs

/-- The first value of the name that a text spells. -/
def first? (name : String) (hs : Headers) : Option String :=
  (name? name).bind fun n => (hs.values n).head?

/-- Every value with its name, sorted by name. -/
def toPairs (hs : Headers) : List (String × String) :=
  hs.flatMap fun h => h.2.map fun v => (h.1, v)

/-- A pair as it may stand in headers. -/
def checked? (p : String × String) : Option (String × String) :=
  match name? p.1 with
  | some n => if isValue p.2 then some (n, p.2) else none
  | none => none

/-- Appends pairs in turn; `none` when one of them is no header. -/
def appendPairs? : List (String × String) → Headers → Option Headers
  | [], hs => some hs
  | p :: rest, hs => match checked? p with
    | some (n, v) => appendPairs? rest (append n v hs)
    | none => none

/-! ## Laws -/

@[simp] theorem values_insert_self (name value : String) (hs : Headers) :
    (hs.insert name value).values name = [value] := by
  simp [insert, values]

theorem values_insert_of_ne {name other : String} (h : other ≠ name) (value : String)
    (hs : Headers) : (hs.insert name value).values other = hs.values other := by
  simp [insert, values, Keyed.get?_set_of_ne h]

@[simp] theorem values_append_self (name value : String) (hs : Headers) :
    (hs.append name value).values name = hs.values name ++ [value] := by
  simp [append, values]

theorem values_append_of_ne {name other : String} (h : other ≠ name) (value : String)
    (hs : Headers) : (hs.append name value).values other = hs.values other := by
  simp [append, values, Keyed.get?_set_of_ne h]

end Headers
end Switchboard.Http
