import Switchboard.Json.Printer

/-!
# Switchboard.Json.Ascii

The compact text of a JSON value in ASCII alone.  A character outside of ASCII can
only stand in a string, and there it may be written as the numbers of its UTF-16
units.
-/

namespace Switchboard.Json

/-- A UTF-16 unit as an escape. -/
def escapeUnit (n : Nat) : List Char :=
  '\\' :: 'u' :: [n / 0x1000, n / 0x100 % 0x10, n / 0x10 % 0x10, n % 0x10].map Text.hexDigit

/-- The UTF-16 units of a character: one, or two from U+10000 on. -/
def units (c : Char) : List Nat :=
  let n := c.toNat
  if n < 0x10000 then [n]
  else [0xD800 + (n - 0x10000) / 0x400, 0xDC00 + (n - 0x10000) % 0x400]

/-- How a character stands in a text in ASCII. -/
def asciiChar (c : Char) : List Char :=
  if c.toNat < 0x7F then [c] else (units c).flatMap escapeUnit

/-- The compact text of a value in ASCII. -/
def renderAscii (j : Json) : String := String.ofList (j.render.toList.flatMap asciiChar)

end Switchboard.Json
