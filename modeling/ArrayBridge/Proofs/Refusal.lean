import ArrayBridge.Proofs.Construction
import ArrayBridge.Proofs.Marshalling
import ArrayBridge.Proofs.Traversal

/-!
Values that cannot be bound. An empty value is never refused, and for one whose class has a cell the size of
its blob is the only reason.
-/
namespace ArrayBridge

variable {config : Config} {a : NumericArray} {v : HostValue} {e : BridgeError}

namespace NumericArray

/-- The size of a blob with the array in it. -/
def blobSize (a : NumericArray) : Nat := 36 + 4 * a.dims.length + a.data.length

/-- The error for a blob of that size. A size beyond 64 bits is not told, and the limit is then the one that was
set. -/
def excess (config : Config) (size : Nat) : BridgeError :=
  if size ≤ 0xFFFFFFFFFFFFFFFF then .sizeExceeded size (min config.maxBlobSize 0x7FFFFFFF)
  else .sizeExceeded 0xFFFFFFFFFFFFFFFF config.maxBlobSize

/-- An array that is not empty is text, one number or several. -/
theorem text_or_scalar_or_several (h : a.isEmpty = false) :
    a.type = .char ∨ (a.type ≠ .char ∧ a.isScalar = true) ∨ (a.type ≠ .char ∧ 2 ≤ a.count) := by
  by_cases hchar : a.type = .char
  · exact .inl hchar
  have hzero : a.count ≠ 0 := of_decide_eq_false h
  by_cases hone : a.count = 1
  · exact .inr (.inl ⟨hchar, decide_eq_true hone⟩)
  · exact .inr (.inr ⟨hchar, by omega⟩)

theorem exists_charBytes (h : a.type = .char) : ∃ bytes, a.charBytes = some bytes := by
  rw [charBytes, toList?, if_pos h, Option.map_some]
  exact ⟨_, rfl⟩

theorem Filled.isEmpty_iff (h : a.Filled) : a.isEmpty = true ↔ 0 ∈ a.dims := by
  rw [isEmpty, decide_eq_true_iff, h.count_eq, List.prod_eq_zero_iff]

theorem Filled.dim_le_length (h : a.Filled) (hzero : 0 ∉ a.dims) {d : Nat} (hd : d ∈ a.dims) :
    d ≤ a.data.length :=
  (dim_le_size a.type hzero hd).trans_eq h.exact

/-- With elements in it the array is stored or not for its size alone: no dimension is larger than the data. -/
theorem Filled.toBlob_cases (h : a.Filled) (hzero : 0 ∉ a.dims) (config : Config) :
    (min config.maxBlobSize 0x7FFFFFFF < a.blobSize ∧ a.toBlob config = .error (excess config a.blobSize)) ∨
      (a.blobSize ≤ min config.maxBlobSize 0x7FFFFFFF ∧ ∃ b, a.toBlob config = .ok b) := by
  obtain ⟨r, hwritten, hblob⟩ := exists_written a config
  rw [hblob, blobSize]
  cases hwritten with
  | uncounted hover =>
      -- The data alone can be counted or not; either way the blob cannot.
      have hlarge : ¬36 + 4 * a.dims.length + a.data.length ≤ 0xFFFFFFFFFFFFFFFF := fun hle =>
        absurd (hover _ (h.payload (by omega))) (Nat.not_lt.mpr hle)
      refine .inl ⟨by omega, ?_⟩
      rw [excess, if_neg hlarge]
      rfl
  | large hp hle hover =>
      obtain rfl := hp.exact.symm.trans h.exact
      refine .inl ⟨?_, by rw [excess, if_pos hle]; rfl⟩
      rcases hover with hover | ⟨d, hd, hover⟩
      · exact hover
      · have := h.dim_le_length hzero hd
        omega
  | uneven hp _ _ hne => exact absurd (h.exact.symm.trans hp.exact) hne
  | blob _ hle _ _ => exact .inr ⟨hle, _, rfl⟩

theorem Filled.toBlob_error_iff (h : a.Filled) (hzero : 0 ∉ a.dims) :
    a.toBlob config = .error e ↔
      min config.maxBlobSize 0x7FFFFFFF < a.blobSize ∧ e = excess config a.blobSize := by
  rcases h.toBlob_cases hzero config with ⟨hlarge, herror⟩ | ⟨hle, b, hok⟩
  · rw [herror, Except.error.injEq, eq_comm, and_iff_right hlarge]
  · rw [hok]
    exact iff_of_false nofun fun hlarge => absurd hlarge.1 (Nat.not_lt.mpr hle)

end NumericArray

namespace HostValue

/-- The arrays that a value itself is made of. -/
def arrays : HostValue → List NumericArray
  | .numeric a => [a]
  | .complex real imag => [real, imag]
  | _ => []

/-- Values without an element, a byte, an item or a record. -/
inductive Missing : HostValue → Prop
  | array {a : NumericArray} : 0 ∈ a.dims → Missing (.numeric a)
  | text : Missing (.text [])
  | complex {real imag : NumericArray} : 0 ∈ real.dims → Missing (.complex real imag)
  | cell : Missing (.cell [])
  | struct {fields : List String} : Missing (.struct ⟨fields, []⟩)

theorem Missing.isEmpty (h : Missing v) (hbuilt : ∀ a ∈ v.arrays, a.Constructed) : v.isEmpty = true := by
  cases h with
  | array hzero => exact (hbuilt _ (.head _)).filled.isEmpty_iff.mpr hzero
  | complex hzero => exact (hbuilt _ (.head _)).filled.isEmpty_iff.mpr hzero
  | text | cell | struct => rfl

theorem missing_of_isEmpty (h : v.isEmpty = true) (hbuilt : ∀ a ∈ v.arrays, a.Constructed) : Missing v := by
  cases v with
  | numeric a => exact .array ((hbuilt _ (.head _)).filled.isEmpty_iff.mp h)
  | complex real imag => exact .complex ((hbuilt _ (.head _)).filled.isEmpty_iff.mp h)
  | text bytes =>
      obtain rfl : bytes = [] := List.isEmpty_iff.mp h
      exact .text
  | cell items =>
      obtain rfl : items = [] := List.isEmpty_iff.mp h
      exact .cell
  | struct r =>
      obtain ⟨fields, records⟩ := r
      obtain rfl : records = [] := List.isEmpty_iff.mp h
      exact .struct
  | object name => cases h

theorem isEmpty_iff (hbuilt : ∀ a ∈ v.arrays, a.Constructed) : v.isEmpty = true ↔ Missing v :=
  ⟨fun h => missing_of_isEmpty h hbuilt, fun h => h.isEmpty hbuilt⟩

end HostValue

namespace Parameter

/-- The values that are refused, and the error of each. -/
inductive Refused (config : Config) : HostValue → BridgeError → Prop
  | complex {real imag : NumericArray} : 0 ∉ real.dims →
      Refused config (.complex real imag) (.unsupportedType ("complex " ++ real.type.name))
  | cell {items : List HostValue} : items ≠ [] → Refused config (.cell items) (.unsupportedType "cell")
  | struct {r : RecordArray HostValue} : r.records ≠ [] → Refused config (.struct r) (.unsupportedType "struct")
  | object (name : String) : Refused config (.object name) (.invalidArgument (.unbindable name))
  | large {a : NumericArray} : config.typedBlobs = true → a.type ≠ .char → 2 ≤ a.dims.prod →
      min config.maxBlobSize 0x7FFFFFFF < a.blobSize →
      Refused config (.numeric a) (NumericArray.excess config a.blobSize)

theorem Refused.isEmpty_eq_false (h : Refused config v e) (hbuilt : ∀ a ∈ v.arrays, a.Constructed) :
    v.isEmpty = false := by
  rw [← Bool.not_eq_true, HostValue.isEmpty_iff hbuilt]
  intro hmissing
  cases h with
  | complex hzero =>
      cases hmissing with
      | complex hmem => exact hzero hmem
  | cell hne =>
      cases hmissing
      exact hne rfl
  | struct hne =>
      cases hmissing
      exact hne rfl
  | object name => cases hmissing
  | large _ _ hmany _ =>
      cases hmissing with
      | array hmem =>
          rw [List.prod_eq_zero hmem] at hmany
          omega

theorem Refused.ofValue_eq (h : Refused config v e) (hbuilt : ∀ a ∈ v.arrays, a.Constructed) :
    ofValue config v = .error e := by
  have hempty := h.isEmpty_eq_false hbuilt
  cases h with
  | complex _ | cell _ | struct _ | object _ =>
      rw [ofValue, hempty]
      rfl
  | large htyped hchar hmany hlarge =>
      have hfilled := (hbuilt _ (.head _)).filled
      have hzero := mt hfilled.isEmpty_iff.mpr (ne_true_of_eq_false hempty)
      rw [ofValue_several hchar (hfilled.count_eq ▸ hmany), if_pos htyped,
        (hfilled.toBlob_error_iff hzero).mpr ⟨hlarge, rfl⟩]
      rfl

/-- What is not empty is bound as something, but for several numbers that go into a typed blob. -/
theorem array_cases (config : Config) (hempty : a.isEmpty = false) :
    (∃ c, ofValue config (.numeric a) = .ok c ∧ c ≠ .null) ∨
      (config.typedBlobs = true ∧ a.type ≠ .char ∧ 2 ≤ a.count) := by
  rcases NumericArray.text_or_scalar_or_several hempty with hchar | ⟨hchar, hscalar⟩ | ⟨hchar, hseveral⟩
  · obtain ⟨bytes, hbytes⟩ := NumericArray.exists_charBytes hchar
    exact .inl ⟨_, ofValue_char hchar hempty hbytes, nofun⟩
  · refine .inl ⟨_, ofValue_singleton hchar (NumericArray.toList?_of_isScalar hscalar), ?_⟩
    split <;> exact nofun
  · by_cases htyped : config.typedBlobs = true
    · exact .inr ⟨htyped, hchar, hseveral⟩
    · exact .inl ⟨_, (ofValue_several hchar hseveral).trans (if_neg htyped), nofun⟩

theorem refused_array (h : ofValue config (.numeric a) = .error e) (hempty : a.isEmpty = false)
    (hfilled : a.Filled) : Refused config (.numeric a) e := by
  rcases array_cases config hempty with ⟨c, hok, -⟩ | ⟨htyped, hchar, hseveral⟩
  · rw [hok] at h
    cases h
  · have hzero : 0 ∉ a.dims := mt hfilled.isEmpty_iff.mpr (ne_true_of_eq_false hempty)
    rw [ofValue_several hchar hseveral, if_pos htyped, Traversal.map_eq_error_iff, hfilled.toBlob_error_iff hzero] at h
    obtain ⟨hlarge, rfl⟩ := h
    exact .large htyped hchar (hfilled.count_eq ▸ hseveral) hlarge

theorem refused_of_ofValue (h : ofValue config v = .error e) (hbuilt : ∀ a ∈ v.arrays, a.Constructed) :
    Refused config v e := by
  cases hempty : v.isEmpty with
  | true =>
      rw [ofValue_of_isEmpty hempty] at h
      cases h
  | false =>
      have hmissing := mt (HostValue.isEmpty_iff hbuilt).mpr (ne_true_of_eq_false hempty)
      cases v with
      | numeric a => exact refused_array h hempty (hbuilt _ (.head _)).filled
      | text bytes =>
          rw [ofValue, hempty] at h
          cases h
      | complex real imag =>
          rw [ofValue, hempty] at h
          cases h
          exact .complex fun hzero => hmissing (.complex hzero)
      | cell items =>
          rw [ofValue, hempty] at h
          cases h
          exact .cell fun hnil => hmissing (hnil ▸ .cell)
      | struct r =>
          rw [ofValue, hempty] at h
          cases h
          exact .struct fun hnil => ne_true_of_eq_false hempty (List.isEmpty_iff.mpr hnil)
      | object name =>
          rw [ofValue, hempty] at h
          cases h
          exact .object name

theorem isEmpty_of_ofValue (h : ofValue config v = .ok .null) : v.isEmpty = true := by
  rw [← Bool.not_eq_false]
  intro hempty
  cases v with
  | numeric a =>
      rcases array_cases config hempty with ⟨c, hok, hne⟩ | ⟨htyped, hchar, hseveral⟩
      · exact hne (Except.ok.inj (hok.symm.trans h))
      · obtain ⟨b, -, hblob⟩ := toBlob_of_ofValue hchar hseveral htyped h
        cases hblob
  | text _ | complex _ _ | cell _ | struct _ | object _ =>
      rw [ofValue, hempty] at h
      cases h

/-- The data of every array that can be had is as long as its dimensions say. So an empty value is a NULL and
no other value is, and the classes without a cell and the size of a blob are all there is to refuse. -/
theorem ofValue_exact :
    (∀ a : NumericArray, a.Constructed →
      a.dims.prod * a.type.size = a.data.length ∧ a.count = a.dims.prod ∧
        (a.data.length ≤ 0xFFFFFFFFFFFFFFFF → Payload a.type a.dims a.data.length)) ∧
      ∀ (config : Config) (v : HostValue), (∀ a ∈ v.arrays, a.Constructed) →
        (ofValue config v = .ok .null ↔ v.Missing) ∧ ∀ e, ofValue config v = .error e ↔ Refused config v e := by
  refine ⟨fun a h => ?_, fun config v hbuilt => ⟨?_, fun e => ?_⟩⟩
  · exact ⟨h.filled.exact, h.filled.count_eq, h.filled.payload⟩
  · rw [← HostValue.isEmpty_iff hbuilt]
    exact ⟨isEmpty_of_ofValue, ofValue_of_isEmpty⟩
  · exact ⟨fun h => refused_of_ofValue h hbuilt, fun h => h.ofValue_eq hbuilt⟩

/-- A row of two numbers takes 48 bytes; with room for one byte less it is refused. -/
theorem ofValue_exact_limit :
    Payload .int16 [1, 2] 4 ∧
      ofValue { typedBlobs := true, maxBlobSize := 47 } (.numeric (.row .int16 [1, -2])) =
        .error (.sizeExceeded 48 47) ∧
      ofValue {} (.numeric .empty) = .ok .null := by
  have hrow := (ofValue_exact.1 (.row .int16 [1, -2]) (.row .int16 [1, -2])).2.2 (by decide)
  have hbuilt : ∀ a ∈ (HostValue.numeric (.row .int16 [1, -2])).arrays, a.Constructed := by
    rintro a (_ | ⟨_, ⟨⟩⟩)
    exact .row .int16 [1, -2]
  have hnone : ∀ a ∈ (HostValue.numeric .empty).arrays, a.Constructed := by
    rintro a (_ | ⟨_, ⟨⟩⟩)
    exact .empty
  refine ⟨hrow, ?_, ?_⟩
  · exact ((ofValue_exact.2 { typedBlobs := true, maxBlobSize := 47 } _ hbuilt).2 _).mpr
      (.large rfl (by decide) (by decide) (by decide))
  · exact (ofValue_exact.2 {} _ hnone).1.mpr (.array (by decide))

end Parameter

end ArrayBridge
