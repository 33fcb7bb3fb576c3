import ArrayBridge.Element
import ArrayBridge.Platform

/-!
A typed blob stores an array with its element type, its dimensions and the platform that wrote it.

| offset | size | field                               |
|--------|------|-------------------------------------|
| 0      | 13   | magic                               |
| 13     | 1    | padding                             |
| 14     | 2    | header size, which is the version   |
| 16     | 4    | element type id                     |
| 20     | 11   | platform name, padded with zeros    |
| 31     | 1    | byte order flag                     |
| 32     | 4    | number `n` of dimensions            |
| 36     | 4n   | the dimensions                      |
| 36+4n  |      | the elements, as they were given    |

The numbers of the header stand in the byte order that the flag names; the elements are never swapped.
-/
namespace ArrayBridge

structure TypedBlob where
  type : ElementType
  dims : List Nat
  data : Bytes
  platform : String
  order : ByteOrder
  deriving DecidableEq, Repr

namespace TypedBlob

/-- `mkSQLite.tbh` and a NUL. -/
def magic : Bytes := [109, 107, 83, 81, 76, 105, 116, 101, 46, 116, 98, 104, 0]

/-- The header before the dimensions; written to the version field. -/
def headerSize : Nat := 36

/-- The largest blob that the format can describe, and the largest dimension. -/
def maxSize : Nat := 0x7FFFFFFF

/-- Where the elements begin. -/
def headerOffset (dims : Nat) : Nat := headerSize + 4 * dims

/-- The number of elements. -/
def count (t : TypedBlob) : Nat := t.dims.foldl (· * ·) 1

def origin (t : TypedBlob) : Platform := .named t.platform t.order

def differsFrom (t : TypedBlob) (host : Platform) : Bool :=
  t.order ≠ host.order || t.platform ≠ host.name

end TypedBlob

/-- What is wrong with a header that is not the blob's magic, version or element type. -/
inductive HeaderFault
  | short (length : Nat)
  | orderFlag (byte : UInt8)
  | negativeCount (n : Int)
  | truncated (n : Nat)
  | negativeDim (size : Int) (position : Nat)
  | stated (text : String)
  deriving DecidableEq, Repr

inductive BlobError
  | sizeExceeded (size max : Nat)
  | lengthMismatch (expected actual : Nat)
  | badMagic
  | unsupportedVersion (found expected : Int)
  | unsupportedHeader (fault : HeaderFault)
  | unknownElementType (id : Int)
  | sizeMismatch (expected actual : Nat)
  | outOfMemory (size : Nat)
  deriving DecidableEq, Repr

/-- A byte as two hexadecimal digits. -/
def byteText (b : UInt8) : String :=
  String.ofList [Nat.digitChar (b.toNat / 16), Nat.digitChar (b.toNat % 16)]

def HeaderFault.text : HeaderFault → String
  | .short n => s!"{n} bytes is shorter than the {TypedBlob.headerSize} byte header"
  | .orderFlag b => "invalid byte order flag 0x" ++ byteText b
  | .negativeCount n => s!"negative dimension count {n}"
  | .truncated n => s!"dimension table for {n} dimensions is truncated"
  | .negativeDim size position => s!"negative size {size} for dimension {position}"
  | .stated text => text

namespace BlobError

def kind : BlobError → String
  | .sizeExceeded .. => "SizeExceeded"
  | .lengthMismatch .. => "LengthMismatch"
  | .badMagic => "BadMagic"
  | .unsupportedVersion .. => "UnsupportedVersion"
  | .unsupportedHeader _ => "UnsupportedHeader"
  | .unknownElementType _ => "UnknownElementType"
  | .sizeMismatch .. => "SizeMismatch"
  | .outOfMemory _ => "OutOfMemory"

def message : BlobError → String
  | .sizeExceeded size max => s!"BLOB exceeds maximum allowed size ({size} > {max} bytes)"
  | .lengthMismatch expected actual =>
    s!"payload holds {actual} bytes but the array needs {expected}"
  | .badMagic => "typed BLOB magic tag mismatch"
  | .unsupportedVersion found expected =>
    s!"unsupported typed BLOB header version {found} (expected {expected})"
  | .unsupportedHeader fault => s!"unknown/unsupported typed BLOB header: {fault.text}"
  | .unknownElementType id => s!"unknown element type id {id}"
  | .sizeMismatch expected actual =>
    s!"typed BLOB payload holds {actual} bytes, header describes {expected}"
  | .outOfMemory size => s!"memory allocation error ({size} bytes)"

end BlobError

end ArrayBridge
