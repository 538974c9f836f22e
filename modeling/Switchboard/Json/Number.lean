import Switchboard.Json.Value

/-!
# Switchboard.Json.Number

What a number in a JSON text means.  A whole number that fits 64 bits, with or
without a sign, stays exact; every other number, and `-0`, is a floating-point
number.

A floating-point number is made of a significand, as many leading digits as fit
64 bits, and a power of ten.  Both are rounded to a floating-point number before
they are combined, so that the last bit may differ from the nearest number.
-/

namespace Switchboard.Json

/-- The largest whole number that stays exact. -/
def maxWhole : Nat := UInt64.size - 1

/-- The value of a decimal digit. -/
def digitValue (c : Char) : Nat := c.toNat - 0x30

/-- Appends digits to a significand while it fits 64 bits; gives the digits left over. -/
def takeDigits (n : Nat) : List Char → Nat × List Char
  | [] => (n, [])
  | d :: ds =>
    if maxWhole < n * 10 + digitValue d then (n, d :: ds)
    else takeDigits (n * 10 + digitValue d) ds

/-- Multiplies by a power of ten, each factor a floating-point number.  Powers
below `10 ^ -308` are reached in steps; `none` when the result is too large. -/
def scale : Nat → Double → Int → Option Double
  | 0, x, _ => some { x with significand := 0, exponent := Double.minExponent }
  | fuel + 1, x, e =>
    if x.significand = 0 then some x
    else if 308 < e then none
    else if 0 ≤ e then (Double.ofDecimal false 1 e).bind x.mul
    else if -308 ≤ e then (Double.ofDecimal false 1 (-e)).bind x.div
    else do
      let step ← Double.ofDecimal false 1 308
      let y ← x.div step
      scale fuel y (e + 308)

/-- The parts of a written number. -/
structure Numeral where
  negative : Bool
  whole : List Char
  /-- The digits after the point, if there is one. -/
  fraction : Option (List Char)
  /-- The exponent, if there is one. -/
  power : Option Int
  deriving Repr

/-- The floating-point number that a numeral stands for; `none` when it is too large. -/
def Numeral.toDouble (x : Numeral) : Option Double := do
  let (n, left) := takeDigits 0 x.whole
  let decimals := x.fraction.getD []
  let (m, unread) := takeDigits n decimals
  let e : Int := left.length - (decimals.length - unread.length : Nat) + x.power.getD 0
  let significand ← Double.ofNat m
  let magnitude ← scale 4 significand e
  return if x.negative then magnitude.negate else magnitude

/-- The value of a numeral; `none` when it is too large. -/
def Numeral.value (x : Numeral) : Option Json :=
  let exact :=
    match x.fraction, x.power, takeDigits 0 x.whole with
    | none, none, (n, []) =>
      if !x.negative then some (n : Int)
      else if n ≠ 0 ∧ n ≤ UInt64.size / 2 then some (-(n : Int))
      else none
    | _, _, _ => none
  match exact with
  | some n => some (.int n)
  | none => x.toDouble.map .float

end Switchboard.Json
