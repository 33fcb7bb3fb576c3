import ArrayBridge.Binary64
import ArrayBridge.Error

/-!
Arrays of the host: an element type, dimensions, and the elements as bytes in the order of this machine,
least significant first.
-/
namespace ArrayBridge

abbrev ElementType.Value : ElementType → Type
  | .logical => Bool
  | .char => UInt16
  | .double => Binary64
  | .single => Binary32
  | .int8 => Int8
  | .uint8 => UInt8
  | .int16 => Int16
  | .uint16 => UInt16
  | .int32 => Int32
  | .uint32 => UInt32
  | .int64 => Int64
  | .uint64 => UInt64

namespace ElementType

/-- An element as the bytes that store it. -/
def store : (t : ElementType) → t.Value → Bytes
  | .logical, v => [if v then 1 else 0]
  | .char, v => .ofNat 2 v.toNat
  | .double, v => .ofNat 8 v.bits.toNat
  | .single, v => .ofNat 4 v.bits.toNat
  | .int8, v => .ofInt 1 v.toInt
  | .uint8, v => [v]
  | .int16, v => .ofInt 2 v.toInt
  | .uint16, v => .ofNat 2 v.toNat
  | .int32, v => .ofInt 4 v.toInt
  | .uint32, v => .ofNat 4 v.toNat
  | .int64, v => .ofInt 8 v.toInt
  | .uint64, v => .ofNat 8 v.toNat

/-- The element that the bytes store. Any byte but zero is a logical true. -/
def load : (t : ElementType) → Bytes → t.Value
  | .logical, b => b.toNat ≠ 0
  | .char, b => .ofNat b.toNat
  | .double, b => ⟨.ofNat b.toNat⟩
  | .single, b => ⟨.ofNat b.toNat⟩
  | .int8, b => .ofInt b.toInt
  | .uint8, b => .ofNat b.toNat
  | .int16, b => .ofInt b.toInt
  | .uint16, b => .ofNat b.toNat
  | .int32, b => .ofInt b.toInt
  | .uint32, b => .ofNat b.toNat
  | .int64, b => .ofInt b.toInt
  | .uint64, b => .ofNat b.toNat

/-- An element as a double; whole numbers are rounded to the nearest one. -/
def toDouble : (t : ElementType) → t.Value → Binary64
  | .logical, v => .ofInt (if v then 1 else 0)
  | .char, v => .ofInt v.toNat
  | .double, v => v
  | .single, v => v.toBinary64
  | .int8, v => .ofInt v.toInt
  | .uint8, v => .ofInt v.toNat
  | .int16, v => .ofInt v.toInt
  | .uint16, v => .ofInt v.toNat
  | .int32, v => .ofInt v.toInt
  | .uint32, v => .ofInt v.toNat
  | .int64, v => .ofInt v.toInt
  | .uint64, v => .ofInt v.toNat

/-- An element as a whole number: fractions are dropped and a `uint64` wraps around. -/
def toInt64 : (t : ElementType) → t.Value → Int64
  | .logical, v => if v then 1 else 0
  | .char, v => .ofNat v.toNat
  | .double, v => .ofInt v.toInt64
  | .single, v => .ofInt v.toBinary64.toInt64
  | .int8, v => .ofInt v.toInt
  | .uint8, v => .ofNat v.toNat
  | .int16, v => .ofInt v.toInt
  | .uint16, v => .ofNat v.toNat
  | .int32, v => .ofInt v.toInt
  | .uint32, v => .ofNat v.toNat
  | .int64, v => v
  | .uint64, v => .ofNat v.toNat

end ElementType

/-- Arithmetic on 64-bit words either stops the program where a result does not fit or wraps around, as the program
was built. -/
inductive Build
  | checked
  | wrapping
  deriving DecidableEq, Repr

/-- The program has stopped at a result that does not fit. -/
inductive Overflow
  | stopped
  deriving DecidableEq, Repr

namespace Build

/-- A sum or a product as a word: `exact` is the number that it is. -/
def word (m : Build) (exact : Nat) : Except Overflow UInt64 :=
  if m = .checked ∧ UInt64.size ≤ exact then .error .stopped else .ok (.ofNat exact)

def add (m : Build) (x y : UInt64) : Except Overflow UInt64 := m.word (x.toNat + y.toNat)

def mul (m : Build) (x y : UInt64) : Except Overflow UInt64 := m.word (x.toNat * y.toNat)

end Build

structure NumericArray where
  type : ElementType
  dims : List Nat
  data : Bytes
  deriving DecidableEq, Repr

/-- The single byte of a character, and `?` for one that has none. -/
def narrowUnit (n : Nat) : UInt8 := if n ≤ 0xFF then UInt8.ofNat n else 63

namespace NumericArray

/-- The data must hold exactly the elements that the dimensions describe. -/
def new (type : ElementType) (dims : List Nat) (data : Bytes) : Except BridgeError NumericArray :=
  if payloadSize type dims = some data.length then .ok ⟨type, dims, data⟩
  else .error (.invalidArgument (.unfilled data.length dims type))

def storeAll (t : ElementType) (values : List t.Value) : Bytes := values.flatMap t.store

def ofElements (t : ElementType) (dims : List Nat) (values : List t.Value) :
    Except BridgeError NumericArray :=
  new t dims (storeAll t values)

def scalar (t : ElementType) (value : t.Value) : NumericArray := ⟨t, [1, 1], t.store value⟩

def row (t : ElementType) (values : List t.Value) : NumericArray :=
  ⟨t, [1, values.length], storeAll t values⟩

def ofBytes (bytes : Bytes) : NumericArray := ⟨.uint8, [1, bytes.length], bytes⟩

def empty : NumericArray := ⟨.double, [0, 0], []⟩

def count (a : NumericArray) : Nat := a.data.length / a.type.size

def isEmpty (a : NumericArray) : Bool := a.count = 0

def isScalar (a : NumericArray) : Bool := a.count = 1

/-- The elements, if they are of the type asked for. -/
def toList? (a : NumericArray) (t : ElementType) : Option (List t.Value) :=
  if a.type = t then some ((a.data.chunks t.size).map t.load) else none

/-- The bytes of element `i`, between two positions that are computed before they are compared with the data. -/
def elementBytes (m : Build) (a : NumericArray) (i : UInt64) : Except Overflow (Option Bytes) := do
  let size := UInt64.ofNat a.type.size
  let low ← m.mul i size
  let high ← m.mul (← m.add i 1) size
  let (low, high) := (low.toNat, high.toNat)
  return if low ≤ high ∧ high ≤ a.data.length then some (a.data.slice low (high - low)) else none

def elementDouble (m : Build) (a : NumericArray) (i : UInt64) : Except Overflow (Option Binary64) :=
  (a.elementBytes m i).map fun b => b.map fun b => a.type.toDouble (a.type.load b)

def elementInt64 (m : Build) (a : NumericArray) (i : UInt64) : Except Overflow (Option Int64) :=
  (a.elementBytes m i).map fun b => b.map fun b => a.type.toInt64 (a.type.load b)

/-- An element that is read for its place among those there are, where positions fit in every build. -/
def double? (a : NumericArray) (i : UInt64) : Option Binary64 := (a.elementDouble .checked i).toOption.join

def int64? (a : NumericArray) (i : UInt64) : Option Int64 := (a.elementInt64 .checked i).toOption.join

/-- The elements of a char array as single bytes. -/
def charBytes (a : NumericArray) : Option Bytes :=
  (a.toList? .char).map fun units => units.map fun u => narrowUnit u.toNat

def text (a : NumericArray) : String := s!"[{dimsText a.dims} {a.type.name}]"

end NumericArray

end ArrayBridge
