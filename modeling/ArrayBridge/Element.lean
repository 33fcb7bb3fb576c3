/-!
The element types of an array, the numbers that stand for them in a header, and the count of
elements that a list of dimensions describes.
-/
namespace ArrayBridge

inductive ElementType
  | logical
  | char
  | double
  | single
  | int8
  | uint8
  | int16
  | uint16
  | int32
  | uint32
  | int64
  | uint64
  deriving DecidableEq, Repr

namespace ElementType

def all : List ElementType :=
  [.logical, .char, .double, .single, .int8, .uint8, .int16, .uint16, .int32, .uint32, .int64, .uint64]

def id : ElementType → Nat
  | .logical => 3
  | .char => 4
  | .double => 6
  | .single => 7
  | .int8 => 8
  | .uint8 => 9
  | .int16 => 10
  | .uint16 => 11
  | .int32 => 12
  | .uint32 => 13
  | .int64 => 14
  | .uint64 => 15

def ofId? (n : Int) : Option ElementType := all.find? (fun t => (t.id : Int) = n)

def size : ElementType → Nat
  | .logical | .int8 | .uint8 => 1
  | .char | .int16 | .uint16 => 2
  | .single | .int32 | .uint32 => 4
  | .double | .int64 | .uint64 => 8

def name : ElementType → String
  | .logical => "logical"
  | .char => "char"
  | .double => "double"
  | .single => "single"
  | .int8 => "int8"
  | .uint8 => "uint8"
  | .int16 => "int16"
  | .uint16 => "uint16"
  | .int32 => "int32"
  | .uint32 => "uint32"
  | .int64 => "int64"
  | .uint64 => "uint64"

def ofName? (s : String) : Option ElementType := all.find? (fun t => t.name = s)

def isFloat : ElementType → Bool
  | .double | .single => true
  | _ => false

end ElementType

/-- The largest size that is counted. -/
def maxCount : Nat := 0xFFFFFFFFFFFFFFFF

/-- `a * b`, unless it is too large to be counted. -/
def checkedMul (a b : Nat) : Option Nat := if a * b ≤ maxCount then some (a * b) else none

def checkedAdd (a b : Nat) : Option Nat := if a + b ≤ maxCount then some (a + b) else none

/-- The product of the dimensions, taken from the left: a partial product that is too large fails even
where a later dimension is zero. -/
def elementCount (dims : List Nat) : Option Nat := dims.foldlM checkedMul 1

/-- The bytes an array of these dimensions takes. -/
def payloadSize (type : ElementType) (dims : List Nat) : Option Nat :=
  (elementCount dims).bind fun n => checkedMul n type.size

/-- Dimensions as they are shown: `2x3`. -/
def dimsText (dims : List Nat) : String := "x".intercalate (dims.map toString)

end ArrayBridge
