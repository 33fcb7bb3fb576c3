import ArrayBridge.NumericArray

/-!
The values of the host, and its tables of named fields.
-/
namespace ArrayBridge

/-- Every byte as the Latin-1 character it stands for. -/
def latin1 (bytes : Bytes) : List Char := bytes.map fun b => Char.ofNat b.toNat

/-- One byte a character; one without a single byte becomes `?`. -/
def latin1Bytes (cs : List Char) : Bytes := cs.map fun c => narrowUnit c.toNat

/-- One row of values a record, one column a field. -/
structure RecordArray (α : Type) where
  fields : List String
  records : List (List α)
  deriving DecidableEq, Repr

namespace RecordArray

/-- The first record that has not one value a field, by its position from 1. -/
def uneven? (width : Nat) : Nat → List (List α) → Option (Nat × Nat)
  | _, [] => none
  | i, r :: rs => if r.length ≠ width then some (i, r.length) else uneven? width (i + 1) rs

def new (fields : List String) (records : List (List α)) : Except BridgeError (RecordArray α) :=
  match uneven? fields.length 1 records with
  | some (i, n) => .error (.invalidArgument (.unevenRecord i n fields.length))
  | none => .ok ⟨fields, records⟩

def size (r : RecordArray α) : Nat := r.records.length

def isEmpty (r : RecordArray α) : Bool := r.records.isEmpty

/-- The first field of that name. -/
def fieldIndex? (r : RecordArray α) (name : String) : Option Nat := r.fields.findIdx? (· = name)

def get? (r : RecordArray α) (record : Nat) (field : String) : Option α := do
  let i ← r.fieldIndex? field
  let values ← r.records[record]?
  values[i]?

def column? (r : RecordArray α) (field : String) : Option (List α) :=
  (r.fieldIndex? field).map fun i => r.records.filterMap (·[i]?)

end RecordArray

inductive HostValue
  | numeric (array : NumericArray)
  | text (bytes : Bytes)
  | complex (real imag : NumericArray)
  | cell (items : List HostValue)
  | struct (records : RecordArray HostValue)
  | object (className : String)
  deriving Repr

namespace HostValue

def ofText (s : String) : HostValue := .text (latin1Bytes s.toList)

def double (x : Binary64) : HostValue := .numeric (.scalar .double x)

def empty : HostValue := .numeric .empty

def isEmpty : HostValue → Bool
  | .numeric a => a.isEmpty
  | .text bytes => bytes.isEmpty
  | .complex real _ => real.isEmpty
  | .cell items => items.isEmpty
  | .struct r => r.isEmpty
  | .object _ => false

def className : HostValue → String
  | .numeric a => a.type.name
  | .text _ => "char"
  | .complex real _ => "complex " ++ real.type.name
  | .cell _ => "cell"
  | .struct _ => "struct"
  | .object name => name

def isNumeric : HostValue → Bool
  | .numeric _ => true
  | _ => false

def isText : HostValue → Bool
  | .text _ => true
  | _ => false

/-- The number that a numeric scalar is. -/
def toDouble? : HostValue → Option Binary64
  | .numeric a => if a.isScalar then a.double? 0 else none
  | _ => none

end HostValue

end ArrayBridge
