import ArrayBridge.Proofs.TypedBlob.Format
import ArrayBridge.TypedBlob.Encode

/-!
Writing a typed blob: the bytes stand as the format says, and each refusal has one reason.
-/
namespace ArrayBridge.TypedBlob

variable (origin : Platform) (type : ElementType) (dims : List Nat) (data : Bytes)

@[simp] theorem length_field (order : ByteOrder) (n v : Nat) : (field order n v).length = n := by
  rw [field, ByteOrder.length_arrange, Bytes.length_ofNat]

@[simp] theorem length_nameField (name : String) : (nameField name).length = 11 := by
  simp only [nameField, Bytes.padTo, List.length_append, List.length_replicate, List.length_take,
    Platform.nameLimit]
  omega

@[simp] theorem length_entries (order : ByteOrder) :
    (dims.flatMap (field order 4)).length = 4 * dims.length := by
  induction dims with
  | nil => rfl
  | cons d ds ih =>
      rw [List.flatMap_cons, List.length_append, length_field, ih, List.length_cons]
      omega

theorem slice_entries (order : ByteOrder) {i : Nat} (h : i < dims.length) :
    Bytes.slice (4 * i) 4 (dims.flatMap (field order 4)) = field order 4 dims[i] := by
  have hprefix : ∀ ds : List Nat, ((ds.map (field order 4)).flatten).length = 4 * ds.length := fun ds => by
    rw [← List.flatMap_def, length_entries]
  have hi : (dims.take i).length = i := by
    rw [List.length_take]
    omega
  rw [List.flatMap_def]
  refine Bytes.slice_flatten (k := i) ?_ ?_ (length_field order 4 dims[i])
  · rw [List.getElem?_map, List.getElem?_eq_getElem h, Option.map_some]
  · rw [← List.map_take, hprefix, hi]

/-- The parts of a blob as they follow each other. -/
def parts : List Bytes :=
  [magic, [0], field origin.order 2 headerSize, field origin.order 4 type.id, nameField origin.name,
    [origin.order.flag], field origin.order 4 dims.length, dims.flatMap (field origin.order 4), data]

theorem layout_eq_flatten : layout origin type dims data = (parts origin type dims data).flatten := by
  simp only [layout, parts, List.flatten_cons, List.flatten_nil, List.append_nil, List.append_assoc]

theorem length_layout : (layout origin type dims data).length = 36 + 4 * dims.length + data.length := by
  simp only [layout, List.length_append, length_field, length_nameField, length_entries, magic,
    List.length_cons, List.length_nil]

/-- Part `k` of a blob, where it begins at position `i`. -/
theorem slice_layout {p : Bytes} {k i n : Nat} (h : (parts origin type dims data)[k]? = some p)
    (hi : ((parts origin type dims data).take k).flatten.length = i) (hn : p.length = n) :
    Bytes.slice i n (layout origin type dims data) = p := by
  rw [layout_eq_flatten]
  exact Bytes.slice_flatten h hi hn

theorem nameField_eq {name : String} (h : (Utf8.encode name.toList).length ≤ 10) :
    nameField name =
      Utf8.encode name.toList ++ List.replicate (11 - (Utf8.encode name.toList).length) 0 := by
  rw [nameField, Platform.nameLimit, List.take_of_length_le h, Bytes.padTo]

variable {origin type dims data}

theorem stands_of_part {k i n v : Nat} (h : (parts origin type dims data)[k]? = some (field origin.order n v))
    (hi : ((parts origin type dims data).take k).flatten.length = i) (hv : 2 * v < Bytes.range n)
    (hn : 0 < n) : origin.order.Stands (layout origin type dims data) i n v :=
  ByteOrder.stands_of_slice (slice_layout _ _ _ _ h hi (length_field _ _ _)) hv hn

theorem stands_of_entry (hdims : ∀ d ∈ dims, d ≤ 0x7FFFFFFF) {i : Nat} (h : i < dims.length) :
    origin.order.Stands (layout origin type dims data) (36 + 4 * i) 4 (dims[i] : Nat) := by
  have htable : Bytes.slice 36 (4 * dims.length) (layout origin type dims data) =
      dims.flatMap (field origin.order 4) :=
    slice_layout (k := 7) _ _ _ _ rfl (by simp [parts, magic]) (length_entries _ _)
  have hrange : Bytes.range 4 = 0x100000000 := rfl
  have hle := hdims dims[i] (List.getElem_mem h)
  apply ByteOrder.stands_of_slice _ (by omega) (by decide)
  rw [← Bytes.slice_slice _ (by omega : 4 * i + 4 ≤ 4 * dims.length), htable]
  exact slice_entries dims origin.order h

/-- What is written has the layout of the format. The bounds are those that the writer checks; with them no
number is too large for its field. -/
theorem layout_layout (hname : (Utf8.encode origin.name.toList).length ≤ 10)
    (hcount : dims.length ≤ 0x7FFFFFFF) (hdims : ∀ d ∈ dims, d ≤ 0x7FFFFFFF) :
    Layout origin type dims data (layout origin type dims data) := by
  have hlen := length_layout origin type dims data
  have hrange : Bytes.range 4 = 0x100000000 := rfl
  have hid : type.id < 16 := by cases type <;> decide
  exact {
    long := by omega
    tag := slice_layout (k := 0) _ _ _ _ rfl rfl rfl
    flag := Bytes.getElem?_of_slice (slice_layout (k := 5) _ _ _ _ rfl (by simp [parts, magic]) rfl)
    version := stands_of_part (k := 2) rfl rfl (by decide) (by decide)
    id := stands_of_part (k := 3) rfl (by simp [parts, magic]) (by omega) (by decide)
    count := stands_of_part (k := 6) rfl (by simp [parts, magic]) (by omega) (by decide)
    table := by omega
    entries := fun i h => stands_of_entry hdims h
    padding := Bytes.getElem?_of_slice (slice_layout (k := 1) _ _ _ _ rfl rfl rfl)
    name := by
      rw [← nameField_eq hname]
      exact slice_layout (k := 4) _ _ _ _ rfl (by simp [parts, magic]) (length_nameField _)
    elements := by
      rw [layout]
      apply List.drop_left'
      simp only [List.length_append, length_field, length_nameField, length_entries, magic,
        List.length_cons, List.length_nil] }

/-- What comes of writing a blob. The limits are looked at before the data; the two kinds of excess name
different limits. -/
inductive Written (origin : Platform) (type : ElementType) (dims : List Nat) (data : Bytes) (max : Nat) :
    Except BlobError Bytes → Prop
  | uncounted : (∀ p, Payload type dims p → 0xFFFFFFFFFFFFFFFF < 36 + 4 * dims.length + p) →
      Written origin type dims data max (.error (.sizeExceeded 0xFFFFFFFFFFFFFFFF max))
  | large {p : Nat} : Payload type dims p → 36 + 4 * dims.length + p ≤ 0xFFFFFFFFFFFFFFFF →
      (min max 0x7FFFFFFF < 36 + 4 * dims.length + p ∨ ∃ d ∈ dims, 0x7FFFFFFF < d) →
      Written origin type dims data max
        (.error (.sizeExceeded (36 + 4 * dims.length + p) (min max 0x7FFFFFFF)))
  | uneven {p : Nat} : Payload type dims p → 36 + 4 * dims.length + p ≤ min max 0x7FFFFFFF →
      (∀ d ∈ dims, d ≤ 0x7FFFFFFF) → data.length ≠ p →
      Written origin type dims data max (.error (.lengthMismatch p data.length))
  | blob {b : Bytes} : Payload type dims data.length →
      36 + 4 * dims.length + data.length ≤ min max 0x7FFFFFFF → (∀ d ∈ dims, d ≤ 0x7FFFFFFF) →
      Layout origin type dims data b → Written origin type dims data max (.ok b)

theorem totalSize_eq_some_iff {t : Nat} :
    totalSize type dims = some t ↔
      ∃ p, Payload type dims p ∧ 36 + 4 * dims.length + p = t ∧ t ≤ 0xFFFFFFFFFFFFFFFF := by
  rw [totalSize, Option.bind_eq_some_iff]
  simp only [payloadSize_eq_some_iff, checkedAdd_eq_some_iff, headerOffset, headerSize, maxCount,
    Nat.add_comm]

theorem not_large_iff {limit total : Nat} :
    ¬(limit < total ∨ ∃ d ∈ dims, 0x7FFFFFFF < d) ↔ total ≤ limit ∧ ∀ d ∈ dims, d ≤ 0x7FFFFFFF := by
  simp only [not_or, not_exists, not_and, Nat.not_lt]

theorem encodeFor_of_uncounted (max : Nat)
    (h : ∀ p, Payload type dims p → 0xFFFFFFFFFFFFFFFF < 36 + 4 * dims.length + p) :
    encodeFor origin type dims data max = .error (.sizeExceeded 0xFFFFFFFFFFFFFFFF max) := by
  have htotal : totalSize type dims = none := by
    rw [Option.eq_none_iff_forall_ne_some]
    intro t ht
    obtain ⟨p, hp, rfl, hle⟩ := totalSize_eq_some_iff.mp ht
    exact absurd (h p hp) (Nat.not_lt.mpr hle)
  rw [encodeFor, htotal]
  cases payloadSize type dims <;> rfl

theorem encodeFor_of_payload {p : Nat} (max : Nat) (h : Payload type dims p)
    (hle : 36 + 4 * dims.length + p ≤ 0xFFFFFFFFFFFFFFFF) :
    encodeFor origin type dims data max =
      if min max 0x7FFFFFFF < 36 + 4 * dims.length + p ∨ ∃ d ∈ dims, 0x7FFFFFFF < d then
        .error (.sizeExceeded (36 + 4 * dims.length + p) (min max 0x7FFFFFFF))
      else if data.length ≠ p then .error (.lengthMismatch p data.length)
      else .ok (layout origin type dims data) := by
  have htotal : totalSize type dims = some (36 + 4 * dims.length + p) :=
    totalSize_eq_some_iff.mpr ⟨p, h, rfl, hle⟩
  rw [encodeFor, htotal, payloadSize_eq_some_iff.mpr h]
  rfl

theorem layout_of_limits {p : Nat} (name : String) (order : ByteOrder) (max : Nat)
    (hle : 36 + 4 * dims.length + p ≤ min max 0x7FFFFFFF) (hdims : ∀ d ∈ dims, d ≤ 0x7FFFFFFF) :
    Layout (.named name order) type dims data (layout (.named name order) type dims data) :=
  layout_layout (Platform.length_encode_name name order) (by omega) hdims

theorem written_encodeFor (name : String) (order : ByteOrder) (max : Nat) :
    Written (.named name order) type dims data max (encodeFor (.named name order) type dims data max) := by
  by_cases h : ∃ p, Payload type dims p ∧ 36 + 4 * dims.length + p ≤ 0xFFFFFFFFFFFFFFFF
  · obtain ⟨p, hp, hle⟩ := h
    rw [encodeFor_of_payload max hp hle]
    split
    case isTrue hover => exact .large hp hle hover
    case isFalse hover =>
      obtain ⟨hlimit, hdims⟩ := not_large_iff.mp hover
      split
      case isTrue hne => exact .uneven hp hlimit hdims hne
      case isFalse heq =>
        obtain rfl := Decidable.not_not.mp heq
        exact .blob hp hlimit hdims (layout_of_limits name order max hlimit hdims)
  · have hover : ∀ p, Payload type dims p → 0xFFFFFFFFFFFFFFFF < 36 + 4 * dims.length + p := fun p hp =>
      Nat.not_le.mp fun hle => h ⟨p, hp, hle⟩
    rw [encodeFor_of_uncounted max hover]
    exact .uncounted hover

theorem Written.encodeFor_eq {name : String} {order : ByteOrder} {max : Nat} {r : Except BlobError Bytes}
    (h : Written (.named name order) type dims data max r) :
    encodeFor (.named name order) type dims data max = r := by
  cases h with
  | uncounted hover => exact encodeFor_of_uncounted max hover
  | large hp hle hover => rw [encodeFor_of_payload max hp hle, if_pos hover]
  | uneven hp hle hdims hne =>
      rw [encodeFor_of_payload max hp (by omega), if_neg (not_large_iff.mpr ⟨hle, hdims⟩), if_pos hne]
  | blob hp hle hdims hlayout =>
      rw [encodeFor_of_payload max hp (by omega), if_neg (not_large_iff.mpr ⟨hle, hdims⟩), if_neg (not_not_intro rfl)]
      exact congrArg Except.ok ((layout_of_limits name order max hle hdims).unique hlayout)

/-- Writing ends in the one way that has a reason. What it writes is as long as it should be, whatever limit
the caller gives, and a zero always stands behind the name. -/
theorem encodeFor_exact (name : String) (order : ByteOrder) (type : ElementType) (dims : List Nat)
    (data : Bytes) (max : Nat) :
    (∀ r, encodeFor (.named name order) type dims data max = r ↔
        Written (.named name order) type dims data max r) ∧
      ∀ b, encodeFor (.named name order) type dims data max = .ok b →
        b.length = 36 + 4 * dims.length + data.length ∧ b.length ≤ min max 0x7FFFFFFF ∧ b[30]? = some 0 := by
  have hwritten : Written _ type dims data max _ := written_encodeFor name order max
  refine ⟨fun r => ⟨?_, Written.encodeFor_eq⟩, fun b hb => ?_⟩
  · rintro rfl
    exact hwritten
  · rw [hb] at hwritten
    cases hwritten with
    | blob hp hle hdims hlayout =>
        refine ⟨hlayout.length_eq, hlayout.length_eq ▸ hle, ?_⟩
        exact hlayout.name_end (Platform.length_encode_name name order)

/-- A blob may be as large as the limit. -/
theorem encodeFor_exact_limit :
    ∃ b, encodeFor (.named "HOST" .big) .uint8 [1, 2] [7, 8] 46 = .ok b ∧ b.length = 46 ∧
      encodeFor (.named "HOST" .big) .uint8 [1, 2] [7, 8] 45 = .error (.sizeExceeded 46 45) := by
  have h : encodeFor (.named "HOST" .big) .uint8 [1, 2] [7, 8] 46 =
      .ok (layout (.named "HOST" .big) .uint8 [1, 2] [7, 8]) := by decide
  obtain ⟨hlen, -, -⟩ := (encodeFor_exact "HOST" .big .uint8 [1, 2] [7, 8] 46).2 _ h
  have hp : Payload .uint8 [1, 2] 2 := payloadSize_eq_some_iff.mp rfl
  have hover := ((encodeFor_exact "HOST" .big .uint8 [1, 2] [7, 8] 45).1 _).mpr
    (.large hp (by decide) (.inl (by decide)))
  exact ⟨_, h, hlen, hover⟩

end ArrayBridge.TypedBlob
