import Switchboard.Url.Percent

/-!
# Switchboard.Url.Form

Names and values in a query: pairs joined by `&`, a blank written as `+`, and every
byte but letters, digits and `*-._` escaped.

* `encode` — the text of some pairs;
* `append` — adds pairs to a query that is there;
* `decode` — the pairs of a query, a name and a value for each stretch between `&`.
-/

namespace Switchboard.Form

/-- Characters that stand for themselves. -/
def isPlain (c : Char) : Bool := c.isAlphanum || c == '*' || c == '-' || c == '.' || c == '_'

/-- A name or a value. -/
def encodeText (s : String) : List Char :=
  s.toList.flatMap fun c =>
    if c = ' ' then ['+']
    else if isPlain c then [c]
    else (String.utf8EncodeChar c).flatMap Percent.escape

def encodePair (p : String × String) : List Char := encodeText p.1 ++ '=' :: encodeText p.2

def encode (pairs : List (String × String)) : List Char :=
  ['&'].intercalate (pairs.map encodePair)

/-- Adds one pair at the end of a query. -/
def appendPair (query : List Char) (p : String × String) : List Char :=
  if query.isEmpty then encodePair p else query ++ '&' :: encodePair p

/-- Adds pairs at the end of a query. -/
def append (query : List Char) (pairs : List (String × String)) : List Char :=
  pairs.foldl appendPair query

/-! ## Reading -/

/-- The text that a name or a value spells. -/
def decodeText (cs : List Char) : String :=
  Text.decodeLossy (Percent.decode (cs.map fun c => if c = '+' then ' ' else c))

/-- Splits a stretch at its first `=`. -/
def splitPair (cs : List Char) : List Char × List Char :=
  (cs.takeWhile (· ≠ '='), (cs.dropWhile (· ≠ '=')).drop 1)

def decodePair (cs : List Char) : String × String :=
  let (name, value) := splitPair cs
  (decodeText name, decodeText value)

/-- The pairs of a query; an empty stretch is none. -/
def decode (cs : List Char) : List (String × String) :=
  ((cs.splitOn '&').filter (!·.isEmpty)).map decodePair

end Switchboard.Form
