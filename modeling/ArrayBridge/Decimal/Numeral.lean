import ArrayBridge.Decimal.Digits

/-!
Decimal numerals: an optional sign, digits with an optional point, an optional exponent.
-/
namespace ArrayBridge.Decimal

structure Numeral where
  negative : Bool
  whole : List Char
  fraction : List Char
  exponent : Int
  deriving DecidableEq, Repr

def digitsValue (ds : List Char) : Nat := ds.foldl (fun n d => 10 * n + (d.toNat - '0'.toNat)) 0

/-- The whole number that all of the text is, with at most a plus before it, if 64 bits can hold it. -/
def natural? (cs : List Char) : Option Nat :=
  let ds := if cs.head? = some '+' then cs.tail else cs
  let n := digitsValue ds
  if ds ≠ [] ∧ ds.all Char.isDigit ∧ n ≤ 0xFFFFFFFFFFFFFFFF then some n else none

/-- An optional sign: is it a minus, and what follows. -/
def signed : List Char → Bool × List Char
  | '-' :: r => (true, r)
  | '+' :: r => (false, r)
  | r => (false, r)

/-- The exponent at the front and what follows; without digits there is none and all follows. -/
def exponentPart (cs : List Char) : Int × List Char :=
  match cs with
  | [] => (0, [])
  | c :: r =>
    let s := signed r
    let ds := s.2.takeWhile Char.isDigit
    if (c = 'e' ∨ c = 'E') ∧ ds ≠ [] then
      (if s.1 then -(digitsValue ds : Int) else digitsValue ds, s.2.dropWhile Char.isDigit)
    else (0, cs)

/-- The digits behind a point, and what follows. -/
def fractionPart : List Char → List Char × List Char
  | '.' :: r => (r.takeWhile Char.isDigit, r.dropWhile Char.isDigit)
  | r => ([], r)

/-- The longest numeral at the front and what follows. One digit is needed, on either side of the
point. -/
def Numeral.read? (cs : List Char) : Option (Numeral × List Char) :=
  let s := signed cs
  let whole := s.2.takeWhile Char.isDigit
  let f := fractionPart (s.2.dropWhile Char.isDigit)
  if whole = [] ∧ f.1 = [] then none
  else
    let e := exponentPart f.2
    some (⟨s.1, whole, f.1, e.1⟩, e.2)

/-- The double nearest to `coefficient * 10 ^ exponent`. Beyond four hundred digits on either side of the
point it is known without the power. -/
def nearest (negative : Bool) (coefficient : Nat) (exponent : Int) : Binary64 :=
  let top : Int := (digits coefficient).length + exponent
  if coefficient = 0 ∨ top < -400 then .zero negative
  else if 400 < top then .infinity negative
  else .ofRatio negative ((⟨coefficient, 1⟩ : Ratio).mulPow 10 exponent)

def Numeral.value (n : Numeral) : Binary64 :=
  nearest n.negative (digitsValue (n.whole ++ n.fraction)) (n.exponent - n.fraction.length)

/-- The names of the values that are no numbers, in any letter case, after an optional sign. -/
def named? (cs : List Char) : Option Binary64 :=
  let s := signed cs
  let name := s.2.map Char.toLower
  if name = ['i', 'n', 'f'] ∨ name = ['i', 'n', 'f', 'i', 'n', 'i', 't', 'y'] then some (.infinity s.1)
  else if name = ['n', 'a', 'n'] then
    some (.ofCode s.1 (Binary64.infinityCode + Binary64.quietBit))
  else none

/-- The double that the whole text names. -/
def parse? (cs : List Char) : Option Binary64 :=
  match Numeral.read? cs with
  | some (n, []) => some n.value
  | some _ => none
  | none => named? cs

end ArrayBridge.Decimal
