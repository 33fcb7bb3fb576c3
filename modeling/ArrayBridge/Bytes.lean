/-!
Byte strings, the part of one that a C string shows, and whole numbers of a fixed width in bytes.
-/
namespace ArrayBridge

abbrev Bytes := List UInt8

namespace Bytes

/-- What a NUL-terminated reader sees: everything before the first zero byte. -/
def untilNul (bs : Bytes) : Bytes := bs.takeWhile (· ≠ 0)

/-- The `n` low bytes of `v`, least significant first. -/
def ofNat : Nat → Nat → Bytes
  | 0, _ => []
  | n + 1, v => UInt8.ofNat (v % 256) :: ofNat n (v / 256)

/-- The number whose bytes are given least significant first. -/
def toNat : Bytes → Nat
  | [] => 0
  | b :: r => b.toNat + 256 * toNat r

/-- How many numbers `n` bytes tell apart. -/
def range (n : Nat) : Nat := Nat.pow 256 n

/-- The `n` low bytes of the two's complement form of `v`, least significant first. -/
def ofInt (n : Nat) (v : Int) : Bytes := ofNat n (v % range n).toNat

/-- The upper half of the range of a width stands for the negative numbers. -/
def toInt (bs : Bytes) : Int :=
  if 2 * toNat bs < range bs.length then toNat bs else (toNat bs : Int) - range bs.length

def slice (i n : Nat) (bs : Bytes) : Bytes := (bs.drop i).take n

def padTo (n : Nat) (bs : Bytes) : Bytes := bs ++ List.replicate (n - bs.length) 0

/-- The whole groups of `n` bytes, in order; a shorter rest is dropped. -/
def groups (n : Nat) : Nat → Bytes → List Bytes
  | 0, _ => []
  | k + 1, bs => bs.take n :: groups n k (bs.drop n)

def chunks (n : Nat) (bs : Bytes) : List Bytes := groups n (bs.length / n) bs

end Bytes

end ArrayBridge
