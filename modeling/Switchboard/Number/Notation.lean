import Switchboard.Number.Shortest

/-!
# Switchboard.Number.Notation

How numbers are written.  A floating-point number shows the shortest digits that
read back, and always a point or an exponent, so that it never looks like a whole
number: positional up to sixteen digits before the point and five places of
leading zeros, scientific beyond.
-/

namespace Switchboard.Double

/-- The digits of a number, most significant first. -/
def digitChars (n : Nat) : List Char := Nat.toDigits 10 n

/-- A power of ten with its sign. -/
def renderExponent (e : Int) : List Char :=
  'e' :: (if e < 0 then '-' else '+') :: digitChars e.natAbs

/-- The magnitude `0.d₁d₂… · 10 ^ point` in positional or scientific notation. -/
def renderDigits (ds : List Char) (point : Int) : List Char :=
  let n : Int := ds.length
  if n ≤ point ∧ point ≤ 16 then
    ds ++ List.replicate (point - n).toNat '0' ++ ['.', '0']
  else if 0 < point ∧ point ≤ 16 then
    ds.take point.toNat ++ '.' :: ds.drop point.toNat
  else if -5 < point ∧ point ≤ 0 then
    '0' :: '.' :: (List.replicate (-point).toNat '0' ++ ds)
  else
    let e := renderExponent (point - 1)
    match ds with
    | [d] => d :: e
    | d :: r => d :: '.' :: (r ++ e)
    | [] => []

/-- The text of a number. -/
def render (x : Double) : String :=
  let sign := if x.negative then ['-'] else []
  if x.significand = 0 then String.ofList (sign ++ ['0', '.', '0'])
  else
    let d := x.shortest
    let ds := digitChars d.digits
    String.ofList (sign ++ renderDigits ds (ds.length + d.exponent))

end Switchboard.Double
