import ArrayBridge.Proofs.TypedBlob.RoundTrip
import ArrayBridge.Proofs.Warned
import ArrayBridge.StoredArray

/-!
Reading an array out of a blob: what the blob's own reader takes is an array, and the only warning is for
another platform. An array that was put into a blob here comes back without one.
-/
namespace ArrayBridge.NumericArray

variable {config : Config} {a : NumericArray}

/-- The warning for an array that another platform stored. -/
def originWarnings (b : Bytes) : List Warning :=
  match TypedBlob.decode b with
  | .ok t => if t.differsFrom .current then [.differentOrigin t.platform t.order] else []
  | .error _ => []

theorem originWarnings_eq_nil {b : Bytes} {t : TypedBlob} (h : TypedBlob.decode b = .ok t)
    (horigin : t.differsFrom .current = false) : originWarnings b = [] := by
  simp only [originWarnings, h, horigin, Bool.false_eq_true, if_false]

theorem new_of_decode {b : Bytes} {t : TypedBlob} (h : TypedBlob.decode b = .ok t) :
    new t.type t.dims t.data = .ok ⟨t.type, t.dims, t.data⟩ := by
  obtain ⟨-, hp, -, -⟩ := TypedBlob.decode_eq_ok h
  exact if_pos (payloadSize_eq_some_iff.mpr hp)

theorem runWith_ofBlob (b : Bytes) (w : List Warning) :
    (ofBlob b).runWith w =
      (((TypedBlob.decode b).mapError .ofBlob).map fun t => ⟨t.type, t.dims, t.data⟩, w ++ originWarnings b) := by
  unfold ofBlob originWarnings
  cases h : TypedBlob.decode b with
  | error e => exact congrArg _ (List.append_nil w).symm
  | ok t =>
      have hnew := new_of_decode h
      by_cases hdiffers : t.differsFrom .current
      · simp only [Except.mapError, MonadExcept.ofExcept, pure_bind, hdiffers, hnew, if_true]
        rfl
      · simp only [Except.mapError, MonadExcept.ofExcept, pure_bind, hdiffers, hnew, if_false, Bool.false_eq_true,
          List.append_nil]
        rfl

theorem encode_of_toBlob {b : Bytes} (h : a.toBlob config = .ok b) :
    TypedBlob.encodeFor .current a.type a.dims a.data config.maxBlobSize = .ok b := by
  unfold toBlob TypedBlob.encode at h
  cases hencode : TypedBlob.encodeFor .current a.type a.dims a.data config.maxBlobSize with
  | error e =>
      rw [hencode] at h
      cases h
  | ok c =>
      rw [hencode] at h
      exact congrArg Except.ok (Except.ok.inj h)

theorem ofBlob_of_toBlob {b : Bytes} (h : a.toBlob config = .ok b) (w : List Warning) :
    (ofBlob b).runWith w = (.ok a, w) := by
  have hname : Platform.visible Platform.current.name = Platform.current.name := by decide
  have hdecode := TypedBlob.decode_of_encodeFor (encode_of_toBlob h)
  have hwarnings : originWarnings b = [] := by
    refine originWarnings_eq_nil hdecode ?_
    rw [← Bool.not_eq_true, TypedBlob.differsFrom_iff]
    exact not_not_intro (congrArg (Platform.mk · ByteOrder.native) hname.symm)
  rw [runWith_ofBlob, hdecode, hwarnings, List.append_nil]
  rfl

/-- A blob has a header, so that it is never taken for an empty value. -/
theorem ne_nil_of_toBlob {b : Bytes} (h : a.toBlob config = .ok b) : b ≠ [] := by
  obtain ⟨-, hlayout⟩ := TypedBlob.layout_of_encodeFor (encode_of_toBlob h)
  have hlong := hlayout.long
  intro hnil
  rw [hnil, List.length_nil] at hlong
  omega

end ArrayBridge.NumericArray
