import Switchboard.Text.Utf8

/-!
# Switchboard.Url.Percent

Percent-encoding.  Each part of a URL has its own set of characters that stand for
themselves; the bytes of all others are written as `%` and two digits.
-/

namespace Switchboard.Percent

/-- One hexadecimal digit, upper case. -/
def upperDigit (n : Nat) : Char := if n < 10 then Char.ofNat (0x30 + n) else Char.ofNat (0x37 + n)

/-- A byte as `%` and two digits. -/
def escape (b : UInt8) : List Char :=
  ['%', upperDigit (b.toNat / 16), upperDigit (b.toNat % 16)]

/-- A text with the bytes of every character outside `plain` escaped. -/
def encode (plain : Char → Bool) (cs : List Char) : List Char :=
  cs.flatMap fun c => if plain c then [c] else (String.utf8EncodeChar c).flatMap escape

/-- The value of a hexadecimal digit. -/
def digit? (c : Char) : Option Nat :=
  if '0' ≤ c ∧ c ≤ '9' then some (c.toNat - 0x30)
  else if 'a' ≤ c ∧ c ≤ 'f' then some (c.toNat - 0x57)
  else if 'A' ≤ c ∧ c ≤ 'F' then some (c.toNat - 0x37)
  else none

/-- The bytes of a text with its escapes undone; a `%` without two digits after it
stands for itself. -/
def decode : List Char → Bytes
  | [] => []
  | '%' :: a :: b :: r =>
    match digit? a, digit? b with
    | some x, some y => UInt8.ofNat (x * 16 + y) :: decode r
    | _, _ => 0x25 :: decode (a :: b :: r)
  | c :: r => String.utf8EncodeChar c ++ decode r

/-! ## The sets -/

/-- Characters that every part may hold: ASCII without the controls. -/
def isPrintable (c : Char) : Bool := 0x20 ≤ c.toNat && c.toNat < 0x7F

/-- Printable characters but for some. -/
def except (escaped : List Char) (c : Char) : Bool := isPrintable c && !escaped.contains c

def inFragment : Char → Bool := except [' ', '"', '<', '>', '`']

def inPath : Char → Bool := except [' ', '"', '<', '>', '`', '#', '?', '^', '\x7b', '\x7d']

/-- A user or a password. -/
def inUser : Char → Bool :=
  except [' ', '"', '<', '>', '`', '#', '?', '^', '\x7b', '\x7d', '/', ':', ';', '=', '@', '[',
    '\\', ']', '|']

def inQuery : Char → Bool := except [' ', '"', '#', '<', '>']

/-- The query of a URL with a special scheme. -/
def inSpecialQuery : Char → Bool := except [' ', '"', '#', '<', '>', '\'']

end Switchboard.Percent
