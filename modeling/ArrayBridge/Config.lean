import ArrayBridge.Charset
import ArrayBridge.TypedBlob.Basic

/-!
The settings of a session and the two limits they have to keep.
-/
namespace ArrayBridge

structure Config where
  convertUtf8 : Bool := true
  typedBlobs : Bool := false
  nullAsNan : Bool := false
  checkUniqueFields : Bool := true
  busyTimeout : Nat := 1000
  maxBlobSize : Nat := TypedBlob.maxSize
  deriving DecidableEq, Repr

inductive ConfigFault
  | unreadable
  | blobLimit (size : Nat)
  | timeoutRange (millis : Nat)
  | stated (text : String)
  deriving DecidableEq, Repr

def ConfigFault.text : ConfigFault → String
  | .unreadable => "TOML"
  | .blobLimit size =>
    s!"max_blob_size {size} exceeds the format limit of {TypedBlob.maxSize} bytes"
  | .timeoutRange millis => s!"busy_timeout_ms {millis} is out of range"
  | .stated text => text

namespace Config

def maxTimeout : Nat := 0x7FFFFFFF

def charset (c : Config) : Charset := .ofFlag c.convertUtf8

def withConvertUtf8 (c : Config) (on : Bool) : Config := { c with convertUtf8 := on }

def withTypedBlobs (c : Config) (on : Bool) : Config := { c with typedBlobs := on }

def withNullAsNan (c : Config) (on : Bool) : Config := { c with nullAsNan := on }

def withCheckUniqueFields (c : Config) (on : Bool) : Config := { c with checkUniqueFields := on }

def withMaxBlobSize (c : Config) (size : Nat) : Config := { c with maxBlobSize := size }

/-- The first limit that is not kept, if any. -/
def fault? (c : Config) : Option ConfigFault :=
  if c.maxBlobSize > TypedBlob.maxSize then some (.blobLimit c.maxBlobSize)
  else if c.busyTimeout > maxTimeout then some (.timeoutRange c.busyTimeout)
  else none

end Config

end ArrayBridge
