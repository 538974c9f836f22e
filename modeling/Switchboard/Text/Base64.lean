import Switchboard.Text.Utf8

/-!
# Switchboard.Text.Base64

Bytes as letters and digits: four characters for three bytes, and `=` in place of what is
missing at the end.
-/

namespace Switchboard.Text

/-- The sixty-four characters. -/
def base64Digits : List Char :=
  "ABCDEFGHIJKLMNOPQRSTUVWXYZabcdefghijklmnopqrstuvwxyz0123456789+/".toList

/-- The character for six bits. -/
def base64Digit (n : Nat) : Char := base64Digits.getD (n % 64) '='

/-- Bytes as letters and digits, in groups of four. -/
def base64 : Bytes → List Char
  | [] => []
  | [a] => [base64Digit (a.toNat / 4), base64Digit (a.toNat * 16), '=', '=']
  | [a, b] => [base64Digit (a.toNat / 4), base64Digit (a.toNat * 16 + b.toNat / 16),
      base64Digit (b.toNat * 4), '=']
  | a :: b :: c :: rest =>
    base64Digit (a.toNat / 4) :: base64Digit (a.toNat * 16 + b.toNat / 16) ::
      base64Digit (b.toNat * 4 + c.toNat / 64) :: base64Digit c.toNat :: base64 rest

example : base64 (encode "user:päss") = "dXNlcjpww6Rzcw==".toList := by decide +kernel

end Switchboard.Text
