/-!
Doubles and singles as their bits. Arithmetic on them is exact arithmetic on the fractions that the
finite ones stand for, rounded once at the end.
-/
namespace ArrayBridge

/-- `num / den` to the nearest whole number; a half goes to the even neighbour. -/
def roundDiv (num den : Nat) : Nat :=
  let q := num / den
  let r := num % den
  if 2 * r > den ∨ (2 * r = den ∧ q % 2 = 1) then q + 1 else q

structure Ratio where
  num : Nat
  den : Nat
  deriving DecidableEq, Repr

namespace Ratio

/-- `r / b ^ e`, for `e` of either sign. -/
def divPow (r : Ratio) (b : Nat) (e : Int) : Ratio :=
  if 0 ≤ e then ⟨r.num, r.den * Nat.pow b e.toNat⟩ else ⟨r.num * Nat.pow b (-e).toNat, r.den⟩

def mulPow (r : Ratio) (b : Nat) (e : Int) : Ratio := r.divPow b (-e)

/-- The nearest whole number, a half going to the even one. -/
def round (r : Ratio) : Nat := roundDiv r.num r.den

def floor (r : Ratio) : Nat := r.num / r.den

/-- `b ^ e ≤ r` -/
def atLeastPow (r : Ratio) (b : Nat) (e : Int) : Bool :=
  let s := r.divPow b e
  s.den ≤ s.num

/-- The largest `e` with `2 ^ e ≤ r`, for a positive `r`: the quotient of a number of `i` and one of `j`
bits has its leading bit at `i - j` or just below. -/
def log2 (r : Ratio) : Int :=
  let e : Int := (r.num.log2 : Int) - r.den.log2
  if r.atLeastPow 2 e then e else e - 1

end Ratio

structure Binary64 where
  bits : UInt64
  deriving DecidableEq, Repr

structure Binary32 where
  bits : UInt32
  deriving DecidableEq, Repr

namespace Binary64

/-- The bit of the sign, the topmost. -/
def signBit : Nat := 0x8000000000000000

/-- The lowest bit of the exponent; below it lies the fraction. -/
def exponentUnit : Nat := 0x10000000000000

/-- The bit that sets a quiet NaN apart from a signalling one. -/
def quietBit : Nat := 0x8000000000000

/-- The double whose sign is `negative` and whose other bits are `code`. -/
def ofCode (negative : Bool) (code : Nat) : Binary64 :=
  ⟨UInt64.ofNat (code + if negative then signBit else 0)⟩

def code (x : Binary64) : Nat := x.bits.toNat % signBit

def negative (x : Binary64) : Bool := signBit ≤ x.bits.toNat

/-- The code of infinity: above it lie the NaNs, below it the finite magnitudes in order. -/
def infinityCode : Nat := 2047 * exponentUnit

def nan : Binary64 := ofCode false (infinityCode + quietBit)

def infinity (negative : Bool) : Binary64 := ofCode negative infinityCode

def zero (negative : Bool) : Binary64 := ofCode negative 0

def isNaN (x : Binary64) : Bool := infinityCode < x.code

def isInfinite (x : Binary64) : Bool := x.code = infinityCode

/-- The magnitude of a finite double is `mantissa * 2 ^ exponent`. -/
def mantissa (x : Binary64) : Nat :=
  if x.code < exponentUnit then x.code else x.code % exponentUnit + exponentUnit

def exponent (x : Binary64) : Int := (max 1 (x.code / exponentUnit) : Nat) - 1075

/-- The magnitude of a finite double. -/
def ratio (x : Binary64) : Ratio := (⟨x.mantissa, 1⟩ : Ratio).mulPow 2 x.exponent

/-- The code of the double nearest to `r`, ties to even. Codes of finite magnitudes run through
the multiples of `2 ^ q` in steps of one, so the rounded multiple is the code but for an offset, and a
carry into the next power of two needs no care. -/
def codeOf (r : Ratio) : Nat :=
  if r.num = 0 then 0
  else
    let q := max (r.log2 - 52) (-1074)
    min infinityCode ((q + 1074).toNat * exponentUnit + (r.divPow 2 q).round)

def ofRatio (negative : Bool) (r : Ratio) : Binary64 := ofCode negative (codeOf r)

def ofInt (i : Int) : Binary64 := ofRatio (i < 0) ⟨i.natAbs, 1⟩

/-- Truncation toward zero into the range of a signed 64-bit number; a NaN gives zero. -/
def toInt64 (x : Binary64) : Int :=
  let limit : Int := 0x8000000000000000
  if x.isNaN then 0
  else if x.isInfinite then if x.negative then -limit else limit - 1
  else
    let n : Int := x.ratio.floor
    max (-limit) (min (limit - 1) (if x.negative then -n else n))

/-- Equal as numbers: the two zeros are, and a NaN is not even equal to itself. -/
def numEq (x y : Binary64) : Bool :=
  !x.isNaN && !y.isNaN && (x = y || (x.code = 0 && y.code = 0))

/-- Equal to a whole number, exactly. -/
def equalsInt (x : Binary64) (i : Int) : Bool :=
  x.code < infinityCode && x.ratio.num = i.natAbs * x.ratio.den && (i = 0 || x.negative = (i < 0))

/-- A double as its 16 hexadecimal digits show it, read from a number. -/
def ofBits (n : Nat) : Binary64 := ⟨UInt64.ofNat n⟩

/-- `x` to the power `y`, as the machine computes it. -/
def pow (x y : Binary64) : Binary64 := ⟨(Float.pow (Float.ofBits x.bits) (Float.ofBits y.bits)).toBits⟩

end Binary64

namespace Binary32

/-- The bit of the sign, the topmost. -/
def signBit : Nat := 0x80000000

/-- The lowest bit of the exponent; below it lies the fraction. -/
def exponentUnit : Nat := 0x800000

def infinityCode : Nat := 255 * exponentUnit

def nan : Binary32 := ⟨UInt32.ofNat (infinityCode + 0x400000)⟩

def code (x : Binary32) : Nat := x.bits.toNat % signBit

def negative (x : Binary32) : Bool := signBit ≤ x.bits.toNat

def isNaN (x : Binary32) : Bool := infinityCode < x.code

def mantissa (x : Binary32) : Nat :=
  if x.code < exponentUnit then x.code else x.code % exponentUnit + exponentUnit

def exponent (x : Binary32) : Int := (max 1 (x.code / exponentUnit) : Nat) - 150

/-- Every single is a double. A NaN keeps its payload and becomes quiet. -/
def toBinary64 (x : Binary32) : Binary64 :=
  if x.isNaN then
    .ofCode x.negative (Binary64.infinityCode + (Binary64.quietBit ||| (x.code % exponentUnit) <<< 29))
  else if x.code = infinityCode then .infinity x.negative
  else .ofRatio x.negative ((⟨x.mantissa, 1⟩ : Ratio).mulPow 2 x.exponent)

end Binary32

end ArrayBridge
