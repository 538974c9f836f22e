import Switchboard.Text.Hex
import Switchboard.Text.Visible

/-!
# Switchboard.Text.Quoted

A text between double quotes, as messages show the text they complain about:
quotes and backslashes are escaped, the common controls have a letter, and every
other hidden character is written by its number.
-/

namespace Switchboard.Text

/-- How one character stands inside quotes. -/
def quoteChar (c : Char) : String :=
  if c = '"' then "\\\""
  else if c = '\\' then "\\\\"
  else if c = '\t' then "\\t"
  else if c = '\n' then "\\n"
  else if c = '\r' then "\\r"
  else if c.toNat = 0 then "\\0"
  else if isVisible c then String.singleton c
  else "\\u\x7b" ++ hex c.toNat ++ "\x7d"

/-- A text between double quotes. -/
def quoted (s : String) : String := "\"" ++ String.join (s.toList.map quoteChar) ++ "\""

end Switchboard.Text
