/-!
# Switchboard.Text.Blank

White space as Unicode counts it, and the texts that hold nothing else.  A
setting that is only blank counts as not given.
-/

namespace Switchboard.Text

/-- The characters with the Unicode property `White_Space`. -/
def isSpace (c : Char) : Bool :=
  let n := c.toNat
  (0x09 ≤ n && n ≤ 0x0D) || n == 0x20 || n == 0x85 || n == 0xA0 || n == 0x1680 ||
    (0x2000 ≤ n && n ≤ 0x200A) || n == 0x2028 || n == 0x2029 || n == 0x202F ||
    n == 0x205F || n == 0x3000

/-- A text is blank when it holds white space only; the empty text is blank. -/
def isBlank (s : String) : Bool := s.toList.all isSpace

end Switchboard.Text
