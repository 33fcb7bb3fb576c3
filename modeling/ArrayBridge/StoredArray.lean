import ArrayBridge.HostValue
import ArrayBridge.TypedBlob.Encode
import ArrayBridge.TypedBlob.Decode

/-!
Host arrays to typed blobs and back.
-/
namespace ArrayBridge.NumericArray

def toBlob (a : NumericArray) (config : Config) : Except BridgeError Bytes :=
  (TypedBlob.encode a.type a.dims a.data config.maxBlobSize).mapError .ofBlob

/-- A blob from another platform is read like any other, its elements as they stand, with a warning. -/
def ofBlob (b : Bytes) : Warned NumericArray := do
  let t ← MonadExcept.ofExcept ((TypedBlob.decode b).mapError .ofBlob)
  if t.differsFrom .current then Warned.warn (.differentOrigin t.platform t.order)
  MonadExcept.ofExcept (NumericArray.new t.type t.dims t.data)

end ArrayBridge.NumericArray
