import ArrayBridge.TypedBlob.Basic

/-!
Reading typed blobs. The checks run in the order of the fields, except that the byte order is needed
first; the first one that fails decides the error.
-/
namespace ArrayBridge.TypedBlob

/-- The signed number in the `n` bytes from position `i` on. -/
def numberAt (order : ByteOrder) (i n : Nat) (b : Bytes) : Int :=
  Bytes.toInt (order.arrange (b.slice i n))

/-- The platform name: its field up to the first zero, read leniently. -/
def nameAt (b : Bytes) : String :=
  String.ofList (Utf8.decodeLossy (b.slice 20 Platform.nameLimit).untilNul)

/-- `n` dimensions from the front of `b`; `position` is the number of the first. -/
def dimsFrom (order : ByteOrder) : Nat → Nat → Bytes → Except BlobError (List Nat)
  | 0, _, _ => .ok []
  | n + 1, position, b =>
    let d := numberAt order 0 4 b
    if d < 0 then .error (.unsupportedHeader (.negativeDim d position))
    else (dimsFrom order n (position + 1) (b.drop 4)).map (d.toNat :: ·)

def decode (b : Bytes) : Except BlobError TypedBlob := do
  if b.length < headerSize then throw (.unsupportedHeader (.short b.length))
  if b.take 13 ≠ magic then throw .badMagic
  let flag := b.getD 31 0
  let some order := ByteOrder.ofFlag? flag | throw (.unsupportedHeader (.orderFlag flag))
  let version := numberAt order 14 2 b
  if version ≠ headerSize then throw (.unsupportedVersion version headerSize)
  let id := numberAt order 16 4 b
  let some type := ElementType.ofId? id | throw (.unknownElementType id)
  let count := numberAt order 32 4 b
  if count < 0 then throw (.unsupportedHeader (.negativeCount count))
  let n := count.toNat
  if b.length < headerOffset n then throw (.unsupportedHeader (.truncated n))
  let dims ← dimsFrom order n 1 (b.drop headerSize)
  let data := b.drop (headerOffset n)
  if payloadSize type dims ≠ some data.length then
    throw (.sizeMismatch ((payloadSize type dims).getD maxCount) data.length)
  return ⟨type, dims, data, nameAt b, order⟩

end ArrayBridge.TypedBlob
