import ArrayBridge.Proofs.Construction
import ArrayBridge.Proofs.ElementAccess

/-!
Elements as they are stored in an array. Each type has bytes of its own width, and the chunks that the data is cut
into, the places where single elements are read and the size that the dimensions ask for all go by that width. A list
of elements in memory has no more bytes than a 64-bit word can count.
-/
namespace ArrayBridge

namespace ElementType

variable {b : Bytes}

/-- An element comes back from the bytes it is stored as. -/
theorem load_store (t : ElementType) (v : t.Value) : t.load (t.store v) = v := by
  cases t with
  | logical => cases v <;> rfl
  | uint8 => exact UInt8.ofNat_toNat
  | char | uint16 => rw [store, load, Bytes.toNat_ofNat_of_lt v.toNat_lt, UInt16.ofNat_toNat]
  | uint32 => rw [store, load, Bytes.toNat_ofNat_of_lt v.toNat_lt, UInt32.ofNat_toNat]
  | uint64 => rw [store, load, Bytes.toNat_ofNat_of_lt v.toNat_lt, UInt64.ofNat_toNat]
  | double => rw [store, load, Bytes.toNat_ofNat_of_lt v.bits.toNat_lt, UInt64.ofNat_toNat]
  | single => rw [store, load, Bytes.toNat_ofNat_of_lt v.bits.toNat_lt, UInt32.ofNat_toNat]
  | int8 => rw [store, load, Bytes.toInt_ofInt ((Bytes.fits_iff rfl).mpr ⟨v.le_toInt, v.toInt_lt⟩), Int8.ofInt_toInt]
  | int16 => rw [store, load, Bytes.toInt_ofInt ((Bytes.fits_iff rfl).mpr ⟨v.le_toInt, v.toInt_lt⟩), Int16.ofInt_toInt]
  | int32 => rw [store, load, Bytes.toInt_ofInt ((Bytes.fits_iff rfl).mpr ⟨v.le_toInt, v.toInt_lt⟩), Int32.ofInt_toInt]
  | int64 => rw [store, load, Bytes.toInt_ofInt ((Bytes.fits_iff rfl).mpr ⟨v.le_toInt, v.toInt_lt⟩), Int64.ofInt_toInt]

/-- Bytes come back from the element they store, but for a logical that is neither a zero nor a one. -/
theorem store_load (t : ElementType) (h : b.length = t.size) (hlogical : t = .logical → ∀ x ∈ b, x = 0 ∨ x = 1) :
    t.store (t.load b) = b := by
  cases t with
  | logical =>
      obtain ⟨x, rfl⟩ := List.length_eq_one_iff.mp h
      rcases hlogical rfl x List.mem_cons_self with rfl | rfl <;> rfl
  | uint8 =>
      obtain ⟨x, rfl⟩ := List.length_eq_one_iff.mp h
      exact congrArg (fun y => [y]) UInt8.ofNat_toNat
  | char | uint16 =>
      change b.length = 2 at h
      rw [store, load, UInt16.toNat_ofNat_of_lt' (Bytes.toNat_lt_of_length h), Bytes.ofNat_toNat_of_length h]
  | double | uint64 =>
      change b.length = 8 at h
      rw [store, load, UInt64.toNat_ofNat_of_lt' (Bytes.toNat_lt_of_length h), Bytes.ofNat_toNat_of_length h]
  | single | uint32 =>
      change b.length = 4 at h
      rw [store, load, UInt32.toNat_ofNat_of_lt' (Bytes.toNat_lt_of_length h), Bytes.ofNat_toNat_of_length h]
  | int8 =>
      change b.length = 1 at h
      obtain ⟨hlow, hhigh⟩ : -2 ^ 7 ≤ Bytes.toInt b ∧ Bytes.toInt b < 2 ^ 7 := Bytes.toInt_bounds h rfl
      rw [store, load, Int8.toInt_ofInt_of_le hlow hhigh, Bytes.ofInt_toInt_of_length h]
  | int16 =>
      change b.length = 2 at h
      obtain ⟨hlow, hhigh⟩ : -2 ^ 15 ≤ Bytes.toInt b ∧ Bytes.toInt b < 2 ^ 15 := Bytes.toInt_bounds h rfl
      rw [store, load, Int16.toInt_ofInt_of_le hlow hhigh, Bytes.ofInt_toInt_of_length h]
  | int32 =>
      change b.length = 4 at h
      obtain ⟨hlow, hhigh⟩ : -2 ^ 31 ≤ Bytes.toInt b ∧ Bytes.toInt b < 2 ^ 31 := Bytes.toInt_bounds h rfl
      rw [store, load, Int32.toInt_ofInt_of_le hlow hhigh, Bytes.ofInt_toInt_of_length h]
  | int64 =>
      change b.length = 8 at h
      obtain ⟨hlow, hhigh⟩ : -2 ^ 63 ≤ Bytes.toInt b ∧ Bytes.toInt b < 2 ^ 63 := Bytes.toInt_bounds h rfl
      rw [store, load, Int64.toInt_ofInt_of_le hlow hhigh, Bytes.ofInt_toInt_of_length h]

end ElementType

namespace NumericArray

variable {t : ElementType} {dims : List Nat} {a : NumericArray}

theorem chunks_storeAll (t : ElementType) (values : List t.Value) :
    (storeAll t values).chunks t.size = values.map t.store := by
  have hall : ∀ p ∈ values.map t.store, p.length = t.size := by
    intro p hp
    obtain ⟨v, -, rfl⟩ := List.mem_map.mp hp
    exact t.length_store v
  rw [Bytes.chunks, length_storeAll, Nat.mul_div_cancel _ t.size_pos, storeAll, List.flatMap_def]
  simpa only [List.length_map] using Bytes.groups_flatten hall

theorem toList?_storeAll (t : ElementType) (dims : List Nat) (values : List t.Value) :
    toList? ⟨t, dims, storeAll t values⟩ t = some values := by
  rw [toList?, if_pos rfl, chunks_storeAll, List.map_map]
  refine congrArg some ((List.map_congr_left fun v _ => ?_).trans (List.map_id values))
  exact t.load_store v

theorem toList?_of_ne {other : ElementType} (h : other ≠ a.type) : a.toList? other = none := if_neg h.symm

/-- An element of an array is the one at its place among all of them. -/
theorem elementAt_of_toList? {values : List a.type.Value} (h : a.toList? a.type = some values) {k : Nat}
    (hk : k < values.length) : a.elementAt k = values[k] := by
  have hcount : k < a.count := by rwa [count_of_toList? h]
  obtain rfl := Option.some.inj ((toList?_self a).symm.trans h)
  obtain ⟨_, hchunk⟩ := List.getElem?_eq_some_iff.mp (Bytes.getElem?_chunks hcount)
  rw [List.getElem_map, hchunk, elementAt]

theorem elementInt64_of_toList? (m : Build) {values : List a.type.Value} (h : a.toList? a.type = some values)
    (hlen : a.data.length ≤ 0xFFFFFFFFFFFFFFFF) {i : UInt64} (hi : i.toNat < values.length) :
    a.elementInt64 m i = .ok (some (a.type.toInt64 values[i.toNat])) := by
  rw [elementInt64, elementBytes_of_lt_count m hlen (by rwa [count_of_toList? h]), ← elementAt_of_toList? h hi]
  rfl

theorem ofElements_eq_ok {values : List t.Value} (hlead : ∀ k, (dims.take k).prod ≤ 0xFFFFFFFFFFFFFFFF)
    (hcount : dims.prod = values.length) (hfits : values.length * t.size ≤ 0xFFFFFFFFFFFFFFFF) :
    ofElements t dims values = .ok ⟨t, dims, storeAll t values⟩ := by
  rw [ofElements, new_eq_ok_iff, length_storeAll]
  exact ⟨rfl, hlead, by rw [hcount], hfits⟩

/-- What is loaded from whole elements is stored as the same bytes. -/
theorem storeAll_of_toList? (hsize : a.type.size ∣ a.data.length)
    (hlogical : a.type = .logical → ∀ b ∈ a.data, b = 0 ∨ b = 1) {values : List a.type.Value}
    (h : a.toList? a.type = some values) : storeAll a.type values = a.data := by
  obtain rfl := Option.some.inj ((toList?_self a).symm.trans h)
  have hchunk : ∀ c ∈ a.data.chunks a.type.size, a.type.store (a.type.load c) = c := by
    intro c hc
    -- A chunk is whole because of its place: there is data for it up to its end.
    obtain ⟨k, hk, rfl⟩ := Bytes.exists_slice_of_mem_chunks hc
    have hlen := Bytes.length_slice (Nat.succ_mul k a.type.size ▸ hk)
    exact a.type.store_load hlen fun ht x hx => hlogical ht x (Bytes.mem_of_mem_slice hx)
  rw [storeAll, List.flatMap_map, List.flatMap_def, List.map_congr_left hchunk, List.map_id', Bytes.flatten_chunks hsize]

/-- Elements are stored as data that is taken for an array of the given dimensions wherever these can be counted and
come to their number, and come back from it as they were, one by one and all together. Data comes back from its
elements, but for logical data with other bytes than zeros and ones. -/
theorem storage_exact :
    (∀ (t : ElementType) (dims : List Nat) (values : List t.Value),
      (∀ k, (dims.take k).prod ≤ 0xFFFFFFFFFFFFFFFF) → dims.prod = values.length →
        values.length * t.size ≤ 0xFFFFFFFFFFFFFFFF →
        ∃ a, ofElements t dims values = .ok a ∧ a.toList? t = some values ∧
          (∀ other, other ≠ t → a.toList? other = none) ∧
          (t.isFloat = false → ∀ (i : UInt64) (hi : i.toNat < values.length),
            ∃ x, (∀ m, a.elementInt64 m i = .ok (some x)) ∧ x.toInt = (t.number values[i.toNat]).bmod (2 ^ 64) ∧
            (t ≠ .uint64 → x.toInt = t.number values[i.toNat]))) ∧
      ∀ a : NumericArray, a.Constructed → a.data.length ≤ 0xFFFFFFFFFFFFFFFF →
        (a.type = .logical → ∀ b ∈ a.data, b = 0 ∨ b = 1) →
        ∃ values, a.toList? a.type = some values ∧ ofElements a.type a.dims values = .ok a := by
  constructor
  · intro t dims values hlead hcount hfits
    have hlist := toList?_storeAll t dims values
    have hlen : (storeAll t values).length ≤ 0xFFFFFFFFFFFFFFFF := by rwa [length_storeAll]
    refine ⟨_, ofElements_eq_ok hlead hcount hfits, hlist, fun other h => toList?_of_ne h, fun hfloat i hi => ?_⟩
    refine ⟨_, fun m => elementInt64_of_toList? m hlist hlen hi, t.toInt_toInt64 _, fun h => ?_⟩
    exact t.toInt_toInt64_of_ne _ hfloat h
  · intro a hbuilt hlen hlogical
    have hpayload := hbuilt.filled.payload hlen
    refine ⟨_, toList?_self a, ?_⟩
    have hstored := storeAll_of_toList? ⟨a.dims.prod, by rw [Nat.mul_comm, hpayload.exact]⟩ hlogical (toList?_self a)
    rw [ofElements, hstored, new_eq_ok_iff]
    exact ⟨rfl, hpayload⟩

/-- The largest `uint64` is read as the signed word with the same bits. -/
theorem storage_exact_wrapping :
    (∃ a, ofElements .uint64 [2, 1] [5, 0xFFFFFFFFFFFFFFFF] = .ok a ∧
      a.toList? .uint64 = some [5, 0xFFFFFFFFFFFFFFFF] ∧ a.toList? .int64 = none ∧
      ∃ x, (∀ m, a.elementInt64 m 1 = .ok (some x)) ∧ x.toInt = -1) ∧
      ∃ values, (row .logical [true, false]).toList? .logical = some values ∧
        ofElements .logical [1, 2] values = .ok (row .logical [true, false]) := by
  constructor
  · obtain ⟨a, hstored, hlist, hother, helement⟩ := storage_exact.1 .uint64 [2, 1] [5, 0xFFFFFFFFFFFFFFFF]
      (fun k => (prod_take_le [2, 1] k).trans (by decide)) rfl (by decide)
    obtain ⟨x, hx, hwrapped, -⟩ := helement rfl 1 (by decide)
    exact ⟨a, hstored, hlist, hother .int64 (by decide), x, hx, hwrapped.trans (by decide)⟩
  · have hbits : ∀ b ∈ (row .logical [true, false]).data, b = 0 ∨ b = 1 := by
      simp [row, storeAll, ElementType.store]
    exact storage_exact.2 _ (.row .logical [true, false]) (by decide) fun _ => hbits

end NumericArray

end ArrayBridge
