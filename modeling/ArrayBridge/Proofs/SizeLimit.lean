import ArrayBridge.Proofs.Refusal

/-!
A refusal for its size gives the size of the blob and the limit. The size is above the limit, except for dimensions
of which one is too large for its field while another is zero, and for blobs that cannot be counted where the limit
is the largest number there is.
-/
namespace ArrayBridge

variable {config : Config} {a : NumericArray} {v : HostValue} {size limit : Nat}

namespace TypedBlob

variable {type : ElementType} {dims : List Nat} {data : Bytes} {max : Nat}

/-- Dimensions that are refused with a size within the limit. -/
inductive Understated (type : ElementType) (dims : List Nat) (max : Nat) : Prop
  | void : 0 ∈ dims → Counted dims → (∃ d ∈ dims, 0x7FFFFFFF < d) →
      36 + 4 * dims.length ≤ min max 0x7FFFFFFF → Understated type dims max
  | uncounted : (∀ p, Payload type dims p → 0xFFFFFFFFFFFFFFFF < 36 + 4 * dims.length + p) →
      0xFFFFFFFFFFFFFFFF ≤ max → Understated type dims max

theorem payload_zero (hzero : 0 ∈ dims) (hcounted : Counted dims) : Payload type dims 0 := by
  refine payload_iff.mpr ⟨?_, hcounted, Nat.zero_le _⟩
  rw [List.prod_eq_zero hzero, Nat.zero_mul]

/-- Of a blob within the limit only a dimension can be too large, and then it has no elements. -/
theorem understated_of_large {p : Nat} (hp : Payload type dims p)
    (hle : 36 + 4 * dims.length + p ≤ min max 0x7FFFFFFF) (hdim : ∃ d ∈ dims, 0x7FFFFFFF < d) :
    Understated type dims max := by
  obtain ⟨hexact, hcounted, -⟩ := payload_iff.mp hp
  have hzero : 0 ∈ dims := by
    by_contra hne
    obtain ⟨d, hd, hlarge⟩ := hdim
    have hsmall : d ≤ p := hexact ▸ dim_le_size type hne hd
    omega
  exact .void hzero hcounted hdim (by omega)

theorem understated_of_written {origin : Platform}
    (h : Written origin type dims data max (.error (.sizeExceeded size limit))) (hle : size ≤ limit) :
    Understated type dims max := by
  cases h with
  | uncounted hover => exact .uncounted hover hle
  | large hp _ hover =>
      rcases hover with hover | hdim
      · exact absurd hle (Nat.not_le.mpr hover)
      · exact understated_of_large hp hle hdim

theorem Understated.exists_written (h : Understated type dims max) (origin : Platform) (data : Bytes) :
    ∃ size limit, Written origin type dims data max (.error (.sizeExceeded size limit)) ∧ size ≤ limit := by
  cases h with
  | void hzero hcounted hdim hle =>
      exact ⟨_, _, .large (payload_zero hzero hcounted) (by omega) (.inr hdim), hle⟩
  | uncounted hover hmax => exact ⟨_, _, .uncounted hover, hmax⟩

theorem lt_of_sizeExceeded_iff (name : String) (order : ByteOrder) :
    (∀ size limit, encodeFor (.named name order) type dims data max = .error (.sizeExceeded size limit) →
        limit < size) ↔ ¬Understated type dims max := by
  constructor
  · intro hlt hunder
    obtain ⟨size, limit, hwritten, hle⟩ := hunder.exists_written (.named name order) data
    exact absurd hle (Nat.not_le.mpr (hlt size limit hwritten.encodeFor_eq))
  · intro hunder size limit herror
    by_contra hlt
    have hwritten : Written (.named name order) type dims data max _ := written_encodeFor name order max
    rw [herror] at hwritten
    exact hunder (understated_of_written hwritten (Nat.not_lt.mp hlt))

end TypedBlob

theorem NumericArray.toBlob_eq_sizeExceeded_iff :
    a.toBlob config = .error (.sizeExceeded size limit) ↔
      TypedBlob.encodeFor .current a.type a.dims a.data config.maxBlobSize = .error (.sizeExceeded size limit) := by
  rw [toBlob, TypedBlob.encode]
  cases TypedBlob.encodeFor .current a.type a.dims a.data config.maxBlobSize with
  | ok b => exact iff_of_false nofun nofun
  | error e => cases e <;> simp [Except.mapError, BridgeError.ofBlob]

theorem NumericArray.lt_of_sizeExceeded_iff :
    (∀ size limit, a.toBlob config = .error (.sizeExceeded size limit) → limit < size) ↔
      ¬TypedBlob.Understated a.type a.dims config.maxBlobSize := by
  simp only [toBlob_eq_sizeExceeded_iff]
  exact TypedBlob.lt_of_sizeExceeded_iff "GLNXA64" .native

theorem Parameter.Refused.lt_of_sizeExceeded {e : BridgeError} (h : Parameter.Refused config v e)
    (he : e = .sizeExceeded size limit) :
    limit < size ∨ 0xFFFFFFFFFFFFFFFF ≤ config.maxBlobSize ∧ ∃ a ∈ v.arrays, 0xFFFFFFFFFFFFFFFF < a.blobSize := by
  cases h with
  | complex _ | cell _ | struct _ | object _ => cases he
  | @large a _ _ _ hlarge =>
      rw [NumericArray.excess] at he
      split at he
      case isTrue hfits =>
        cases he
        exact .inl hlarge
      case isFalse hover =>
        cases he
        by_cases hmax : 0xFFFFFFFFFFFFFFFF ≤ config.maxBlobSize
        · exact .inr ⟨hmax, a, .head _, Nat.not_le.mp hover⟩
        · exact .inl (Nat.not_le.mp hmax)

/-- The size given is above the limit given unless the dimensions are understated, for a blob by itself and for an
array. For a value that is bound it always is: only a blob that could not be in memory is left. -/
theorem sizeExceeded_exact (name : String) (order : ByteOrder) (type : ElementType) (dims : List Nat) (data : Bytes)
    (max : Nat) (a : NumericArray) (config : Config) (v : HostValue) (hbuilt : ∀ a ∈ v.arrays, a.Constructed) :
    ((∀ size limit, TypedBlob.encodeFor (.named name order) type dims data max =
        .error (.sizeExceeded size limit) → limit < size) ↔ ¬TypedBlob.Understated type dims max) ∧
      ((∀ size limit, a.toBlob config = .error (.sizeExceeded size limit) → limit < size) ↔
        ¬TypedBlob.Understated a.type a.dims config.maxBlobSize) ∧
      ∀ size limit, Parameter.ofValue config v = .error (.sizeExceeded size limit) →
        limit < size ∨
          0xFFFFFFFFFFFFFFFF ≤ config.maxBlobSize ∧ ∃ a ∈ v.arrays, 0xFFFFFFFFFFFFFFFF < a.blobSize := by
  refine ⟨TypedBlob.lt_of_sizeExceeded_iff name order, NumericArray.lt_of_sizeExceeded_iff, ?_⟩
  intro size limit h
  exact (Parameter.refused_of_ofValue h hbuilt).lt_of_sizeExceeded rfl

/-- A row whose blob takes one byte more than is allowed, and no row of two numbers is understated. -/
theorem sizeExceeded_exact_row :
    Parameter.ofValue { typedBlobs := true, maxBlobSize := 47 } (.numeric (.row .int16 [1, -2])) =
        .error (.sizeExceeded 48 47) ∧
      47 < 48 ∧
      ∀ max size limit, TypedBlob.encodeFor (.named "HOST" .big) .int16 [1, 2] [1, 0, 2] max =
        .error (.sizeExceeded size limit) → limit < size := by
  have h : Parameter.ofValue { typedBlobs := true, maxBlobSize := 47 } (.numeric (.row .int16 [1, -2])) =
      .error (.sizeExceeded 48 47) := by decide
  have hbuilt : ∀ a ∈ (HostValue.numeric (.row .int16 [1, -2])).arrays, a.Constructed := by
    rintro a (_ | ⟨_, ⟨⟩⟩)
    exact .row .int16 [1, -2]
  have hplain : ∀ max, ¬TypedBlob.Understated .int16 [1, 2] max := by
    rintro max (⟨hzero, -⟩ | ⟨hover, -⟩)
    · exact absurd hzero (by decide)
    · exact absurd (hover 4 (payloadSize_eq_some_iff.mp rfl)) (by decide)
  have hexact := fun max => sizeExceeded_exact "HOST" .big .int16 [1, 2] [1, 0, 2] max .empty
    { typedBlobs := true, maxBlobSize := 47 } _ hbuilt
  refine ⟨h, ((hexact 0).2.2 48 47 h).resolve_right fun hmax => ?_, fun max => (hexact max).1.mpr (hplain max)⟩
  exact absurd hmax.1 (by decide)

/-- An array without elements that is refused although its blob is small, and a limit that no size is above. -/
theorem size_within_limit :
    NumericArray.new .uint8 [0x80000000, 0] [] = .ok ⟨.uint8, [0x80000000, 0], []⟩ ∧
      NumericArray.toBlob ⟨.uint8, [0x80000000, 0], []⟩ {} = .error (.sizeExceeded 44 0x7FFFFFFF) ∧
      (BridgeError.sizeExceeded 44 0x7FFFFFFF).message =
        "BLOB exceeds maximum allowed size (44 > 2147483647 bytes)" ∧
      TypedBlob.encodeFor .current .uint8 [0x8000000000000000, 2] [] 0xFFFFFFFFFFFFFFFF =
        .error (.sizeExceeded 0xFFFFFFFFFFFFFFFF 0xFFFFFFFFFFFFFFFF) ∧
      ¬0x7FFFFFFF < 44 ∧ ¬0xFFFFFFFFFFFFFFFF < 0xFFFFFFFFFFFFFFFF := by
  decide

end ArrayBridge
