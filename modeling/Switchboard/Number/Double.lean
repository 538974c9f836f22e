/-!
# Switchboard.Number.Double

Finite 64-bit floating-point numbers, by value: a sign, a significand below
`2 ^ 53` and a power of two.

* `ofRatio` — the number nearest to a quotient, ties to the even significand;
* `mul`, `div` — product and quotient, each rounded once;
* `ofDecimal` — the number nearest to `n · 10 ^ e`.

Each of them is `none` where the nearest number would be infinite.
-/

namespace Switchboard

/-- A finite 64-bit floating-point number: `± significand · 2 ^ exponent`, with
the exponent as small as the format allows. -/
structure Double where
  negative : Bool
  significand : Nat
  exponent : Int
  deriving DecidableEq, Repr

namespace Double

/-- The exponent of the smallest numbers. -/
def minExponent : Int := -1074

/-- The exponent of the largest numbers. -/
def maxExponent : Int := 971

/-- Where significands end. -/
def significandBound : Nat := 1 <<< 53

def zero : Double := ⟨false, 0, minExponent⟩

def negate (x : Double) : Double := { x with negative := !x.negative }

/-- Numerator and denominator of the magnitude. -/
def ratio (x : Double) : Nat × Nat :=
  (x.significand <<< x.exponent.toNat, 1 <<< (-x.exponent).toNat)

/-- The whole number nearest to `num / den`, ties to even. -/
def roundDiv (num den : Nat) : Nat :=
  let q := num / den
  let twice := 2 * (num % den)
  if twice < den then q
  else if twice = den then q + q % 2
  else q + 1

/-- `num / den` in units of `2 ^ e`, as a quotient of whole numbers. -/
def inUnits (num den : Nat) (e : Int) : Nat × Nat :=
  (num <<< (-e).toNat, den <<< e.toNat)

/-- The exponent at which `num / den` has 53 significant bits, or the least one. -/
def exponentFor (num den : Nat) : Int :=
  let e := max ((num.log2 : Int) - den.log2 - 53) minExponent
  let (a, b) := inUnits num den e
  if significandBound ≤ a / b then e + 1 else e

/-- The number nearest to `num / den`, ties to the even significand; `none` when
that is infinite.  The denominator is positive. -/
def ofRatio (negative : Bool) (num den : Nat) : Option Double :=
  if num = 0 then some ⟨negative, 0, minExponent⟩
  else
    let e := exponentFor num den
    let (a, b) := inUnits num den e
    let m := roundDiv a b
    let (m, e) := if m = significandBound then (significandBound / 2, e + 1) else (m, e)
    if maxExponent < e then none else some ⟨negative, m, e⟩

/-- The number nearest to a natural number. -/
def ofNat (n : Nat) : Option Double := ofRatio false n 1

/-- `n · 10 ^ e` as a quotient of whole numbers. -/
def decimalRatio (n : Nat) (e : Int) : Nat × Nat :=
  (n * Nat.pow 10 e.toNat, Nat.pow 10 (-e).toNat)

/-- The number nearest to `± n · 10 ^ e`.  A decimal from `10 ^ 310` on is infinite,
and one below `10 ^ -330` is zero, whatever its digits are. -/
def ofDecimal (negative : Bool) (n : Nat) (e : Int) : Option Double :=
  let top := e + (Nat.toDigits 10 n).length
  if n = 0 ∨ top < -330 then some ⟨negative, 0, minExponent⟩
  else if 310 < top then none
  else
    let (a, b) := decimalRatio n e
    ofRatio negative a b

/-- The product, rounded. -/
def mul (x y : Double) : Option Double :=
  let (a, b) := x.ratio
  let (c, d) := y.ratio
  ofRatio (x.negative != y.negative) (a * c) (b * d)

/-- The quotient by a number that is not zero, rounded. -/
def div (x y : Double) : Option Double :=
  let (a, b) := x.ratio
  let (c, d) := y.ratio
  ofRatio (x.negative != y.negative) (a * d) (b * c)

end Double
end Switchboard
