import Switchboard.Text.Hex
import Switchboard.Toml.Value

/-!
# Switchboard.Toml.Scalar

The values that are one word: truth values, whole numbers in four bases,
floating-point numbers and moments.  Of an infinity or a NaN a configuration keeps
null.
-/

namespace Switchboard.Toml

/-- Removes the underscores between the digits of a word; `none` when there is no
digit, or an underscore has no digit on both sides. -/
def plainDigits? (isDigit : Char → Bool) : List Char → Option (List Char)
  | [] => none
  | [c] => if isDigit c then some [c] else none
  | c :: '_' :: r => if isDigit c then (plainDigits? isDigit r).map (c :: ·) else none
  | c :: r => if isDigit c then (plainDigits? isDigit r).map (c :: ·) else none

/-- The number that digits spell in a base. -/
def digitsIn (base : Nat) (ds : List Char) : Nat :=
  ds.foldl (fun n d => n * base + (Text.hexDigit? d).getD 0) 0

/-- The digits of a decimal without a needless zero in front. -/
def decimalDigits? (cs : List Char) : Option (List Char) :=
  match plainDigits? Char.isDigit cs with
  | some ('0' :: _ :: _) => none
  | r => r

/-- A whole number, which has to fit 64 bits with a sign. -/
def whole (n : Int) : Value :=
  if Int64.minValue.toInt ≤ n ∧ n ≤ Int64.maxValue.toInt then .atom (.int n) else .tooLarge

def isOctal (c : Char) : Bool := '0' ≤ c && c ≤ '7'

def isBinary (c : Char) : Bool := c == '0' || c == '1'

def isHex (c : Char) : Bool := (Text.hexDigit? c).isSome

/-- Splits a sign off. -/
def signed : List Char → Bool × List Char
  | '-' :: r => (true, r)
  | '+' :: r => (false, r)
  | r => (false, r)

/-- Splits at the first character that satisfies a test, which is dropped. -/
def cut? (p : Char → Bool) (cs : List Char) : Option (List Char × List Char) :=
  match cs.dropWhile fun c => !p c with
  | [] => none
  | _ :: after => some (cs.takeWhile fun c => !p c, after)

/-- A decimal with a point, an exponent, or both. -/
def float? (negative : Bool) (cs : List Char) : Option Value := do
  let (mantissa, power) ← match cut? (fun c => c == 'e' || c == 'E') cs with
    | some (m, p) => do
      let (minus, ds) := signed p
      let ds ← plainDigits? Char.isDigit ds
      let n : Int := digitsIn 10 ds
      some (m, if minus then -n else n)
    | none => some (cs, 0)
  let (whole, decimals) ← match cut? (· == '.') mantissa with
    | some (w, f) => do
      let ds ← plainDigits? Char.isDigit f
      some (w, ds)
    | none => some (mantissa, [])
  let whole ← decimalDigits? whole
  match Double.ofDecimal negative (digitsIn 10 (whole ++ decimals)) (power - decimals.length) with
  | some x => some (.atom (.float x))
  | none => some .tooLarge

/-- The value that a word stands for. -/
def scalar? (word : List Char) : Option Value :=
  match word with
  | ['t', 'r', 'u', 'e'] => some (.atom (.bool true))
  | ['f', 'a', 'l', 's', 'e'] => some (.atom (.bool false))
  | '0' :: 'x' :: r => (plainDigits? isHex r).map fun ds => whole (digitsIn 16 ds)
  | '0' :: 'o' :: r => (plainDigits? isOctal r).map fun ds => whole (digitsIn 8 ds)
  | '0' :: 'b' :: r => (plainDigits? isBinary r).map fun ds => whole (digitsIn 2 ds)
  | _ =>
    match Moment.ofChars? word with
    | some m => some (.moment m)
    | none =>
      let (negative, r) := signed word
      match r with
      | ['i', 'n', 'f'] | ['n', 'a', 'n'] => some (.atom .null)
      | _ =>
        match decimalDigits? r with
        | some ds =>
          let n : Int := digitsIn 10 ds
          some (whole (if negative then -n else n))
        | none =>
          if r.any fun c => c == '.' || c == 'e' || c == 'E' then float? negative r else none

end Switchboard.Toml
