import ArrayBridge.Decimal.Digits

/-!
The shortest decimal that reads back as a given double: of all decimals in the interval that rounds
to it, one with the fewest digits, and of those the nearest.
-/
namespace ArrayBridge.Decimal

structure Scaled where
  coefficient : Nat
  exponent : Int
  deriving DecidableEq, Repr

/-- Which of two decimals that are equally near is taken. -/
inductive Tie
  | up
  | toEven
  deriving DecidableEq, Repr

/-- The fractions that round to a double, all over one denominator. The ends belong to them if the
mantissa is even. -/
structure Interval where
  low : Nat
  value : Nat
  high : Nat
  den : Nat
  closed : Bool

/-- The lower neighbour of a power of two is half as far away as the upper one. -/
def intervalOf (x : Binary64) : Interval :=
  let scale := (⟨1, 4⟩ : Ratio).mulPow 2 x.exponent
  let m := x.mantissa
  ⟨(4 * m - if m = Binary64.exponentUnit then 1 else 2) * scale.num, 4 * m * scale.num, (4 * m + 2) * scale.num, scale.den,
    m % 2 = 0⟩

/-- Does `n * unit` lie in the interval? -/
def Interval.holds (v : Interval) (n : Nat) (unit : Ratio) : Bool :=
  let a := n * unit.num * v.den
  if v.closed then v.low * unit.den ≤ a && a ≤ v.high * unit.den
  else v.low * unit.den < a && a < v.high * unit.den

/-- The multiple of `10 ^ e` that stands for the value, if one lies in the interval: only the two
neighbours of the value have to be tried. -/
def Interval.onGrid (v : Interval) (tie : Tie) (e : Int) : Option Nat :=
  let unit := (⟨1, 1⟩ : Ratio).mulPow 10 e
  let num := v.value * unit.den
  let den := v.den * unit.num
  let n := num / den
  let r := num % den
  match v.holds n unit, v.holds (n + 1) unit with
  | false, false => none
  | true, false => some n
  | false, true => some (n + 1)
  | true, true =>
    if 2 * r < den then some n
    else if den < 2 * r then some (n + 1)
    else
      match tie with
      | .up => some (n + 1)
      | .toEven => some (if n % 2 = 0 then n else n + 1)

/-- The first grid with a hit, from coarse to fine; `k` more grids are tried. -/
def Interval.firstGrid (v : Interval) (tie : Tie) : Nat → Int → Scaled
  | 0, e => ⟨(v.onGrid tie e).getD 0, e⟩
  | k + 1, e =>
    match v.onGrid tie e with
    | some n => ⟨n, e⟩
    | none => v.firstGrid tie k (e - 1)

/-- Zeros at the end move into the exponent. -/
def Scaled.trim : Nat → Scaled → Scaled
  | 0, d => d
  | k + 1, d =>
    if d.coefficient % 10 = 0 ∧ d.coefficient ≠ 0 then Scaled.trim k ⟨d.coefficient / 10, d.exponent + 1⟩ else d

/-- Of a finite double other than zero. Seventeen digits always suffice. -/
def shortest (tie : Tie) (x : Binary64) : Scaled :=
  ((intervalOf x).firstGrid tie 17 (log10 x.ratio)).trim 18

end ArrayBridge.Decimal
