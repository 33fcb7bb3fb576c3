import ArrayBridge.TypedBlob.Basic

/-!
Writing typed blobs. The size limits are checked on the dimensions alone, before the length of the data.
-/
namespace ArrayBridge.TypedBlob

/-- A number of the header, `n` bytes wide. -/
def field (order : ByteOrder) (n v : Nat) : Bytes := order.arrange (Bytes.ofNat n v)

/-- The platform name in its 11 bytes, the last of which is always zero. -/
def nameField (name : String) : Bytes :=
  Bytes.padTo (Platform.nameLimit + 1) ((Utf8.encode name.toList).take Platform.nameLimit)

/-- The bytes of a blob, limits aside. -/
def layout (origin : Platform) (type : ElementType) (dims : List Nat) (data : Bytes) : Bytes :=
  magic ++ [0] ++ field origin.order 2 headerSize ++ field origin.order 4 type.id ++
    nameField origin.name ++ [origin.order.flag] ++ field origin.order 4 dims.length ++
    dims.flatMap (field origin.order 4) ++ data

/-- The size of the blob, if it can be counted. -/
def totalSize (type : ElementType) (dims : List Nat) : Option Nat :=
  (payloadSize type dims).bind fun n => checkedAdd n (headerOffset dims.length)

/-- The blob, as if it were written on `origin`. -/
def encodeFor (origin : Platform) (type : ElementType) (dims : List Nat) (data : Bytes) (max : Nat) :
    Except BlobError Bytes :=
  match payloadSize type dims, totalSize type dims with
  | some payload, some total =>
    if total > min max maxSize ∨ ∃ d ∈ dims, d > maxSize then
      .error (.sizeExceeded total (min max maxSize))
    else if data.length ≠ payload then .error (.lengthMismatch payload data.length)
    else .ok (layout origin type dims data)
  | _, _ => .error (.sizeExceeded maxCount max)

/-- The blob, written on this platform. -/
def encode (type : ElementType) (dims : List Nat) (data : Bytes) (max : Nat) : Except BlobError Bytes :=
  encodeFor .current type dims data max

end ArrayBridge.TypedBlob
