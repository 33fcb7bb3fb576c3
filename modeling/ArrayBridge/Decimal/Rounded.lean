import ArrayBridge.Decimal.Digits

/-!
Decimals with a fixed number of digits, correctly rounded from the exact value, and doubles written as such.
-/
namespace ArrayBridge.Decimal

/-- `n` significant digits: a coefficient of `n` digits and the exponent of its first one. Zero has the
exponent zero. Rounding up to a power of ten moves the exponent. -/
def significant (n : Nat) (r : Ratio) : Nat × Int :=
  if r.num = 0 then (0, 0)
  else
    let e := log10 r
    let c := (r.divPow 10 (e - (n - 1 : Nat))).round
    if c = Nat.pow 10 n then (Nat.pow 10 (n - 1), e + 1) else (c, e)

/-- `n` digits behind the point. -/
def places (n : Nat) (r : Ratio) : Nat := (r.mulPow 10 n).round

/-- A whole number with `n` of its digits behind a point. Without any, there is no point either. -/
def pointed (n c : Nat) : List Char :=
  let p := withPoint n (digits c)
  if p.2 = [] then p.1 else p.1 ++ '.' :: p.2

/-- Digits behind the sign of a double, a plus being left out. -/
def withSign (x : Binary64) (ds : List Char) : List Char := if x.negative then '-' :: ds else ds

/-- A double with `n` digits behind the point, unless it is infinite. -/
def fixed (n : Nat) (x : Binary64) : List Char :=
  if x.isNaN then ['N', 'a', 'N'] else withSign x (pointed n (places n x.ratio))

/-- A double with one digit before the point and `n` behind it, unless it is infinite, and the power of ten
that this is multiplied with. -/
def scientific (n : Nat) (x : Binary64) : List Char × Int :=
  if x.isNaN then (['N', 'a', 'N'], 0)
  else
    let s := significant (n + 1) x.ratio
    (withSign x (pointed n s.1), s.2)

end ArrayBridge.Decimal
