import ArrayBridge.Utf8

/-!
Where a stored array comes from: a short platform name and a byte order.
-/
namespace ArrayBridge

inductive ByteOrder
  | little
  | big
  deriving DecidableEq, Repr

namespace ByteOrder

/-- The byte that stands for the order in a header: `L` or `B`. -/
def flag : ByteOrder → UInt8
  | .little => 76
  | .big => 66

def ofFlag? (b : UInt8) : Option ByteOrder :=
  if b = 76 then some .little else if b = 66 then some .big else none

def text : ByteOrder → String
  | .little => "little endian"
  | .big => "big endian"

/-- The order of this machine. -/
def native : ByteOrder := .little

/-- `bs` is least significant first; the order says how it stands in the file. -/
def arrange : ByteOrder → Bytes → Bytes
  | .little, bs => bs
  | .big, bs => bs.reverse

end ByteOrder

namespace Platform

/-- The room for a platform name in a header, in bytes. -/
def nameLimit : Nat := 10

/-- The longest prefix of whole characters that takes at most `room` bytes. -/
def fit : Nat → List Char → List Char
  | _, [] => []
  | room, c :: r => if c.utf8Size ≤ room then c :: fit (room - c.utf8Size) r else []

end Platform

structure Platform where
  name : String
  order : ByteOrder
  deriving DecidableEq, Repr

namespace Platform

/-- A longer name is cut to the room a header has for it. -/
def named (name : String) (order : ByteOrder) : Platform :=
  ⟨String.ofList (fit nameLimit name.toList), order⟩

def current : Platform := named "GLNXA64" .native

def text (p : Platform) : String := p.name ++ ", " ++ p.order.text

end Platform

end ArrayBridge
