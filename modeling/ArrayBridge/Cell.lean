import ArrayBridge.NumericArray

/-!
The values of the engine.
-/
namespace ArrayBridge

inductive Cell
  | null
  | integer (i : Int64)
  | float (x : Binary64)
  | text (bytes : Bytes)
  | blob (bytes : Bytes)
  deriving DecidableEq, Repr

namespace Cell

def typeName : Cell → String
  | .null => "null"
  | .integer _ => "integer"
  | .float _ => "float"
  | .text _ => "text"
  | .blob _ => "blob"

/-- A bound value as the engine gives it back: all but a NaN is kept. -/
def bound : Cell → Cell
  | .float x => if x.isNaN then .null else .float x
  | c => c

/-- A cell as the host sees it: text crosses into the host's charset. -/
def toHost (charset : Charset) : Cell → Cell
  | .text bytes => .text (charset.toHost bytes)
  | c => c

/-- Equal to the engine: numbers by value, also across the two kinds, text and blobs by their bytes. -/
def sameAs : Cell → Cell → Bool
  | .integer i, .integer j => i = j
  | .integer i, .float x | .float x, .integer i => x.equalsInt i.toInt
  | .float x, .float y => x.numEq y
  | .text a, .text b => a = b
  | .blob a, .blob b => a = b
  | _, _ => false

end Cell

end ArrayBridge
