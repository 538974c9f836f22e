import Switchboard.Number.Double

/-!
# Switchboard.Number.Shortest

The shortest decimal that reads back as a given floating-point number: of all
decimals that round to it the one with the fewest digits, and of those the
nearest.

The decimals that round to a number form an interval.  On the grid of decimals
with `n` digits only the two neighbours of the number itself have to be tried: if
any point of the grid lies in the interval, one of them does.
-/

namespace Switchboard.Double

/-- A decimal: `digits · 10 ^ exponent`. -/
structure Decimal where
  digits : Nat
  exponent : Int
  deriving DecidableEq, Repr

/-- Compares `a · 10 ^ e` with `num / den`. -/
def Decimal.compareRatio (x : Decimal) (num den : Nat) : Ordering :=
  let (a, b) := decimalRatio x.digits x.exponent
  compare (a * den) (num * b)

/-- The ends of the interval that rounds to a number other than zero, over the
common denominator `4 · den`.  Below a power of two the numbers lie closer. -/
def interval (x : Double) : Nat × Nat × Nat :=
  let (num, den) := x.ratio
  let unit := 1 <<< x.exponent.toNat
  let below :=
    if x.significand = significandBound / 2 && minExponent < x.exponent then unit else 2 * unit
  (4 * num - below, 4 * num + 2 * unit, 4 * den)

/-- Whether a decimal rounds to a number other than zero.  The ends of the
interval belong to it when the significand is even. -/
def reads (x : Double) (d : Decimal) : Bool :=
  let (low, high, den) := x.interval
  let above := d.compareRatio low den
  let below := d.compareRatio high den
  if x.significand % 2 = 0 then above != .lt && below != .gt
  else above == .gt && below == .lt

/-- The exponent `e` with `10 ^ e ≤ x < 10 ^ (e + 1)`, for a number other than zero. -/
def decimalExponent (x : Double) : Int :=
  let (num, den) := x.ratio
  let guess := (((x.significand.log2 : Int) + x.exponent) * 30103) / 100000
  if Decimal.compareRatio ⟨1, guess⟩ num den = .gt then guess - 1
  else if Decimal.compareRatio ⟨1, guess + 1⟩ num den = .gt then guess
  else guess + 1

/-- The nearer of the two neighbours on the grid of step `10 ^ e` that reads back
as `x`; of two equally near ones the even one. -/
def onGrid (x : Double) (e : Int) : Option Decimal :=
  let (num, den) := x.ratio
  let (a, b) := decimalRatio 1 e
  let low := num * b / (den * a)
  let rest := 2 * (num * b % (den * a))
  let down : Decimal := ⟨low, e⟩
  let up : Decimal := ⟨low + 1, e⟩
  let preferDown := rest < den * a || (rest = den * a && low % 2 = 0)
  match x.reads down, x.reads up with
  | true, true => some (if preferDown then down else up)
  | true, false => some down
  | false, true => some up
  | false, false => none

/-- Drops up to `n` trailing zeros. -/
def trimDecimal : Nat → Decimal → Decimal
  | 0, d => d
  | n + 1, d => if d.digits % 10 = 0 then trimDecimal n ⟨d.digits / 10, d.exponent + 1⟩ else d

/-- The shortest decimal that reads back as `x`, without trailing zeros. -/
def shortest (x : Double) : Decimal :=
  if x.significand = 0 then ⟨0, 0⟩
  else
    let top := x.decimalExponent
    trimDecimal 20 (((List.range 17).findSome? fun (n : Nat) => x.onGrid (top - n)).getD ⟨0, 0⟩)

end Switchboard.Double
