import ArrayBridge.Binary64

/-!
Decimal digits of whole numbers and fractions, and decimals written out with a point.
-/
namespace ArrayBridge.Decimal

def digits (n : Nat) : List Char := Nat.toDigits 10 n

/-- The largest `e` with `10 ^ e ≤ r`, for a positive `r`: the quotient of a number of `i` and one of
`j` digits has its leading digit at `i - j` or just below. -/
def log10 (r : Ratio) : Int :=
  let e : Int := ((digits r.num).length : Int) - (digits r.den).length
  if r.atLeastPow 10 e then e else e - 1

def zeros (n : Nat) : List Char := List.replicate n '0'

/-- The digits `ds` with `n` of them behind the point, which always has a digit before it. -/
def withPoint (n : Nat) (ds : List Char) : List Char × List Char :=
  let full := zeros (n + 1 - ds.length) ++ ds
  full.splitAt (full.length - n)

/-- `coefficient * 10 ^ exponent` without an exponent: the digits before and behind the point. -/
def positional (coefficient : Nat) (exponent : Int) : List Char × List Char :=
  if 0 ≤ exponent then (digits coefficient ++ zeros exponent.toNat, [])
  else withPoint (-exponent).toNat (digits coefficient)

end ArrayBridge.Decimal
