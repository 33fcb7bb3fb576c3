import ArrayBridge.Proofs.Binary64
import ArrayBridge.Proofs.Bytes
import ArrayBridge.Proofs.Element
import ArrayBridge.NumericArray

/-!
The elements of an array, and what they are as whole numbers.
-/
namespace ArrayBridge

namespace ElementType

theorem size_le (t : ElementType) : t.size ≤ 8 := by
  cases t <;> decide

theorem toNat_size (t : ElementType) : (UInt64.ofNat t.size).toNat = t.size :=
  UInt64.toNat_ofNat_of_lt' (Nat.lt_of_le_of_lt t.size_le (by decide))

theorem length_store (t : ElementType) (v : t.Value) : (t.store v).length = t.size := by
  cases t <;> simp [store, size]

/-- The whole number that an element is, or that is left of it without its fraction. -/
def number : (t : ElementType) → t.Value → Int
  | .logical, v => if v then 1 else 0
  | .char, v => v.toNat
  | .double, v => v.toInt64
  | .single, v => v.toBinary64.toInt64
  | .int8, v => v.toInt
  | .uint8, v => v.toNat
  | .int16, v => v.toInt
  | .uint16, v => v.toNat
  | .int32, v => v.toInt
  | .uint32, v => v.toNat
  | .int64, v => v.toInt
  | .uint64, v => v.toNat

theorem ne_char_of_isFloat {t : ElementType} (h : t.isFloat = true) : t ≠ .char := by
  rintro rfl
  cases h

theorem toInt64_eq (t : ElementType) (v : t.Value) : t.toInt64 v = Int64.ofInt (t.number v) := by
  cases t with
  | logical => cases v <;> rfl
  | int64 => exact (Int64.ofInt_toInt v).symm
  | _ => rfl

theorem toInt_toInt64 (t : ElementType) (v : t.Value) : (t.toInt64 v).toInt = (t.number v).bmod (2 ^ 64) := by
  rw [toInt64_eq]
  exact Int64.toInt_ofInt

/-- Of the whole-number types only `uint64` has elements beyond a signed word. -/
theorem number_range (t : ElementType) (v : t.Value) (hfloat : t.isFloat = false) (h : t ≠ .uint64) :
    -2 ^ 63 ≤ t.number v ∧ t.number v < 2 ^ 63 := by
  cases t with
  | logical => cases v <;> decide
  | double => exact absurd hfloat (by decide)
  | single => exact absurd hfloat (by decide)
  | uint64 => exact absurd rfl h
  | char => have := v.toNat_lt; simp only [number]; omega
  | int8 => have := v.le_toInt; have := v.toInt_lt; simp only [number]; omega
  | uint8 => have := v.toNat_lt; simp only [number]; omega
  | int16 => have := v.le_toInt; have := v.toInt_lt; simp only [number]; omega
  | uint16 => have := v.toNat_lt; simp only [number]; omega
  | int32 => have := v.le_toInt; have := v.toInt_lt; simp only [number]; omega
  | uint32 => have := v.toNat_lt; simp only [number]; omega
  | int64 => exact ⟨v.le_toInt, v.toInt_lt⟩

theorem toInt_toInt64_of_ne (t : ElementType) (v : t.Value) (hfloat : t.isFloat = false) (h : t ≠ .uint64) :
    (t.toInt64 v).toInt = t.number v := by
  obtain ⟨hlow, hhigh⟩ := number_range t v hfloat h
  rw [toInt_toInt64]
  exact Int.bmod_eq_of_le (by omega) (by omega)

end ElementType

namespace NumericArray

variable {a : NumericArray}

theorem length_storeAll (t : ElementType) (values : List t.Value) :
    (storeAll t values).length = values.length * t.size := by
  induction values with
  | nil => simp [storeAll]
  | cons v vs ih =>
      rw [storeAll, List.flatMap_cons, List.length_append, t.length_store, ← storeAll, ih, List.length_cons,
        Nat.succ_mul, Nat.add_comm]

theorem toList?_self (a : NumericArray) :
    a.toList? a.type = some ((a.data.chunks a.type.size).map a.type.load) := if_pos rfl

theorem count_of_toList? {es : List a.type.Value} (h : a.toList? a.type = some es) : a.count = es.length := by
  obtain rfl := Option.some.inj ((toList?_self a).symm.trans h)
  rw [List.length_map, Bytes.length_chunks, count]

theorem toList?_of_isScalar (h : a.isScalar = true) :
    a.toList? a.type = some [a.type.load (a.data.take a.type.size)] := by
  have hcount : a.data.length / a.type.size = 1 := of_decide_eq_true h
  rw [toList?_self, Bytes.chunks, hcount]
  rfl

end NumericArray

end ArrayBridge
