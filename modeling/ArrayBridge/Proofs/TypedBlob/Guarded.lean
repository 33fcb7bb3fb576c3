import ArrayBridge.Proofs.TypedBlob.Reading

/-!
The reader once more, with each access and each sum guarded. A position outside the bytes or a word of more
than 64 bits is a fault, and none occurs.
-/
namespace ArrayBridge

/-- A computation that may fault, `none`, beside ending in an error. -/
abbrev Guarded := ExceptT BlobError Option

namespace Guarded

def fault {α : Type} : Guarded α := ExceptT.mk none

def lift {α : Type} (r : Except BlobError α) : Guarded α := ExceptT.mk (some r)

def word (v : Nat) : Guarded Nat := if v ≤ maxCount then pure v else fault

def byteAt (b : Bytes) (i : Nat) : Guarded UInt8 :=
  match b[i]? with
  | some x => pure x
  | none => fault

def part (b : Bytes) (i n : Nat) : Guarded Bytes := if i + n ≤ b.length then pure (b.slice i n) else fault

def numberAt (order : ByteOrder) (i n : Nat) (b : Bytes) : Guarded Int := do
  let bs ← (List.range' i n).mapM fun k => do byteAt b (← word k)
  return Bytes.toInt (order.arrange bs)

/-- Where the elements begin behind `n` dimensions, which is also where dimension `n` stands. -/
def headerOffset (n : Nat) : Guarded Nat := do
  let slots ← word (n + 1)
  let size ← word (4 * slots)
  word (32 + size)

def nameAt (b : Bytes) : Guarded String := do
  let field ← part b 20 Platform.nameLimit
  let name ← part field 0 ((field.findIdx? (· = 0)).getD Platform.nameLimit)
  return String.ofList (Utf8.decodeLossy name)

def dimAt (order : ByteOrder) (b : Bytes) (i : Nat) : Guarded Nat := do
  let offset ← headerOffset i
  let d ← numberAt order offset 4 b
  if d < 0 then throw (.unsupportedHeader (.negativeDim d (i + 1)))
  return d.toNat

/-- What follows the fixed part of the header. -/
def array (order : ByteOrder) (type : ElementType) (b : Bytes) : Guarded TypedBlob := do
  let platform ← nameAt b
  let count ← numberAt order 32 4 b
  if count < 0 then throw (.unsupportedHeader (.negativeCount count))
  let n := count.toNat
  let offset ← headerOffset n
  if b.length < offset then throw (.unsupportedHeader (.truncated n))
  let dims ← (List.range' 0 n).mapM (dimAt order b)
  let data ← part b offset (b.length - offset)
  if payloadSize type dims ≠ some data.length then
    throw (.sizeMismatch ((payloadSize type dims).getD maxCount) data.length)
  return ⟨type, dims, data, platform, order⟩

def decode (b : Bytes) : Guarded TypedBlob := do
  if b.length < TypedBlob.headerSize then throw (.unsupportedHeader (.short b.length))
  let tag ← part b 0 13
  if tag ≠ TypedBlob.magic then throw .badMagic
  let flag ← byteAt b 31
  let some order := ByteOrder.ofFlag? flag | throw (.unsupportedHeader (.orderFlag flag))
  let version ← numberAt order 14 2 b
  if version ≠ TypedBlob.headerSize then throw (.unsupportedVersion version TypedBlob.headerSize)
  let id ← numberAt order 16 4 b
  let some type := ElementType.ofId? id | throw (.unknownElementType id)
  array order type b

theorem word_eq {v : Nat} (h : v ≤ maxCount) : word v = pure v := if_pos h

theorem byteAt_eq {b : Bytes} {i : Nat} (h : i < b.length) : byteAt b i = pure b[i] := by
  rw [byteAt, List.getElem?_eq_getElem h]

theorem part_eq {b : Bytes} {i n : Nat} (h : i + n ≤ b.length) : part b i n = pure (b.slice i n) := if_pos h

theorem bytesAt_eq {b : Bytes} {i n : Nat} (h : i + n ≤ b.length) (hw : i + n ≤ maxCount) :
    ((List.range' i n).mapM fun k => do byteAt b (← word k)) = (pure (b.slice i n) : Guarded Bytes) := by
  induction n generalizing i with
  | zero => rfl
  | succ n ih =>
      have hi : i < b.length := by omega
      have hslice : b.slice i (n + 1) = b[i] :: b.slice (i + 1) n := by
        rw [Bytes.slice, Bytes.slice, List.drop_eq_getElem_cons hi, List.take_succ_cons]
      rw [List.range'_succ, List.mapM_cons, word_eq (by omega), pure_bind, byteAt_eq hi, pure_bind,
        ih (by omega) (by omega), pure_bind, hslice]

theorem numberAt_eq (order : ByteOrder) {b : Bytes} {i n : Nat} (h : i + n ≤ b.length)
    (hw : i + n ≤ maxCount) : numberAt order i n b = pure (TypedBlob.numberAt order i n b) := by
  rw [numberAt, bytesAt_eq h hw, pure_bind]
  rfl

theorem headerOffset_eq {n : Nat} (h : n ≤ 0x7FFFFFFF) : headerOffset n = pure (36 + 4 * n) := by
  have hmax : maxCount = 0xFFFFFFFFFFFFFFFF := rfl
  rw [headerOffset, word_eq (by omega), pure_bind, word_eq (by omega), pure_bind, word_eq (by omega)]
  congr 1
  omega

theorem take_findIdx (bs : Bytes) : bs.take (bs.findIdx (· = 0)) = bs.untilNul := by
  rw [Bytes.untilNul, List.takeWhile_eq_take_findIdx_not]
  simp

theorem nameAt_eq {b : Bytes} (h : 36 ≤ b.length) : nameAt b = pure (TypedBlob.nameAt b) := by
  have hlimit : Platform.nameLimit = 10 := rfl
  have hfield : (b.slice 20 Platform.nameLimit).length = Platform.nameLimit :=
    Bytes.length_slice (by omega)
  have hend : ((b.slice 20 Platform.nameLimit).findIdx? (· = 0)).getD Platform.nameLimit =
      (b.slice 20 Platform.nameLimit).findIdx (· = 0) := by
    rw [List.findIdx_eq_getD_findIdx?, hfield]
  have hle : (b.slice 20 Platform.nameLimit).findIdx (· = 0) ≤ Platform.nameLimit := by
    exact List.findIdx_le_length.trans_eq hfield
  rw [nameAt, part_eq (by omega), pure_bind, hend, part_eq (by omega), pure_bind, Bytes.slice, List.drop_zero,
    take_findIdx]
  rfl

theorem dimAt_eq (order : ByteOrder) {b : Bytes} {i : Nat} (h : 36 + 4 * (i + 1) ≤ b.length)
    (hi : i < 0x7FFFFFFF) :
    dimAt order b i =
      if TypedBlob.numberAt order (36 + 4 * i) 4 b < 0 then
        throw (.unsupportedHeader (.negativeDim (TypedBlob.numberAt order (36 + 4 * i) 4 b) (i + 1)))
      else pure (TypedBlob.numberAt order (36 + 4 * i) 4 b).toNat := by
  have hmax : maxCount = 0xFFFFFFFFFFFFFFFF := rfl
  rw [dimAt, headerOffset_eq (by omega), pure_bind, numberAt_eq order (by omega) (by omega), pure_bind]
  split
  · rfl
  · rfl

theorem dims_eq (order : ByteOrder) {b : Bytes} {s n : Nat} (h : 36 + 4 * (s + n) ≤ b.length)
    (hn : s + n ≤ 0x7FFFFFFF) :
    (List.range' s n).mapM (dimAt order b) =
      lift (TypedBlob.dimsFrom order n (s + 1) (b.drop (36 + 4 * s))) := by
  -- The loop counts the entries from `s` on, where `dimsFrom` is given what is left behind those before it.
  induction n generalizing s with
  | zero => rfl
  | succ n ih =>
      rw [List.range'_succ, List.mapM_cons, dimAt_eq order (by omega) (by omega), ih (by omega) (by omega),
        TypedBlob.dimsFrom_succ, TypedBlob.numberAt_drop, List.drop_drop, Nat.add_zero (36 + 4 * s),
        show 36 + 4 * s + 4 = 36 + 4 * (s + 1) by omega]
      by_cases hneg : TypedBlob.numberAt order (36 + 4 * s) 4 b < 0
      · rw [if_pos hneg, if_pos hneg]
        rfl
      · rw [if_neg hneg, if_neg hneg, pure_bind]
        cases TypedBlob.dimsFrom order n (s + 1 + 1) (b.drop (36 + 4 * (s + 1))) <;> rfl

theorem count_le (order : ByteOrder) {b : Bytes} (h : 36 ≤ b.length) :
    (TypedBlob.numberAt order 32 4 b).toNat ≤ 0x7FFFFFFF := by
  have hfits := Bytes.toInt_fits (order.arrange (b.slice 32 4))
  rw [ByteOrder.length_arrange, Bytes.length_slice (by omega)] at hfits
  have hhigh : 2 * TypedBlob.numberAt order 32 4 b < 0x100000000 := hfits.high
  omega

theorem array_eq (order : ByteOrder) (type : ElementType) {b : Bytes} (h : 36 ≤ b.length) :
    array order type b = lift (TypedBlob.checkCount b order type) := by
  have hmax : maxCount = 0xFFFFFFFFFFFFFFFF := rfl
  have hcount := count_le order h
  unfold array
  dsimp only
  rw [nameAt_eq h, pure_bind, numberAt_eq order (by omega) (by omega), pure_bind, TypedBlob.checkCount]
  by_cases hneg : TypedBlob.numberAt order 32 4 b < 0
  · rw [if_pos hneg, if_pos hneg]
    rfl
  rw [if_neg hneg, if_neg hneg, headerOffset_eq hcount, pure_bind]
  by_cases htable : b.length < 36 + 4 * (TypedBlob.numberAt order 32 4 b).toNat
  · rw [if_pos htable, if_pos htable]
    rfl
  generalize (TypedBlob.numberAt order 32 4 b).toNat = n at hcount htable ⊢
  have hdims : (List.range' 0 n).mapM (dimAt order b) = lift (TypedBlob.dimsFrom order n 1 (b.drop 36)) :=
    dims_eq order (by omega) (by omega)
  have hdata : b.slice (36 + 4 * n) (b.length - (36 + 4 * n)) = b.drop (36 + 4 * n) := by
    rw [Bytes.slice, ← List.length_drop, List.take_length]
  rw [if_neg htable, if_neg htable, hdims, part_eq (by omega), hdata, TypedBlob.checkTable]
  cases TypedBlob.dimsFrom order n 1 (b.drop 36) with
  | error e => rfl
  | ok dims =>
      by_cases hsize : payloadSize type dims ≠ some (b.drop (36 + 4 * n)).length
      · exact (if_pos hsize).trans (congrArg lift (if_pos hsize).symm)
      · exact (if_neg hsize).trans (congrArg lift (if_neg hsize).symm)

/-- No access of the reader leaves the bytes, and no sum or product on its way to one leaves a word. -/
theorem decode_eq (b : Bytes) : decode b = lift (TypedBlob.decode b) := by
  have hmax : maxCount = 0xFFFFFFFFFFFFFFFF := rfl
  unfold decode
  dsimp only
  rw [TypedBlob.decode_eq]
  by_cases hlong : b.length < 36
  · rw [if_pos hlong, TypedBlob.headerSize, if_pos hlong]
    rfl
  have htag : b.slice 0 13 = b.take 13 := rfl
  rw [if_neg hlong, TypedBlob.headerSize, if_neg hlong, part_eq (by omega), pure_bind, htag]
  by_cases hmagic : b.take 13 ≠ TypedBlob.magic
  · rw [if_pos hmagic, if_pos hmagic]
    rfl
  have hflag : b.getD 31 0 = b[31] := by
    rw [List.getD_eq_getElem?_getD, List.getElem?_eq_getElem (by omega), Option.getD_some]
  rw [if_neg hmagic, if_neg hmagic, byteAt_eq (by omega), pure_bind, TypedBlob.checkFlag, hflag]
  cases ByteOrder.ofFlag? b[31] with
  | none => rfl
  | some order =>
      dsimp only
      rw [numberAt_eq order (by omega) (by omega), pure_bind, TypedBlob.checkVersion]
      by_cases hversion : TypedBlob.numberAt order 14 2 b ≠ 36
      · rw [if_pos hversion]
        exact if_pos hversion
      rw [if_neg hversion, TypedBlob.checkType, numberAt_eq order (by omega) (by omega), pure_bind]
      refine (if_neg hversion).trans ?_
      cases ElementType.ofId? (TypedBlob.numberAt order 16 4 b) with
      | none => rfl
      | some type => exact array_eq order type (Nat.not_lt.mp hlong)

end Guarded

namespace TypedBlob

theorem count_eq_prod (t : TypedBlob) : t.count = t.dims.prod := List.prod_eq_foldl.symm

/-- The reader never faults, its checks decide in the order of `Verdict`, and what it takes is consistent:
the count of elements is within a word and is what the elements divide into. -/
theorem decode_exact (b : Bytes) :
    Guarded.decode b = Guarded.lift (decode b) ∧ (∀ r, decode b = r ↔ Verdict b r) ∧
      ∀ t, decode b = .ok t →
        t.data = b.drop (36 + 4 * t.dims.length) ∧ (∀ d ∈ t.dims, d ≤ 0x7FFFFFFF) ∧
          elementCount t.dims = some t.count ∧ t.count = t.data.length / t.type.size ∧
          t.count * t.type.size = t.data.length := by
  refine ⟨Guarded.decode_eq b, fun r => ⟨?_, Verdict.decode_eq⟩, fun t ht => ?_⟩
  · rintro rfl
    exact verdict_decode b
  · obtain ⟨hshaped, hpayload, hdata, -⟩ := decode_eq_ok ht
    have hcount : t.count * t.type.size = t.data.length := by
      rw [count_eq_prod, hpayload.exact]
    have hdiv : t.count = t.data.length / t.type.size := by
      rw [← hcount, Nat.mul_div_cancel _ t.type.size_pos]
    refine ⟨hdata, fun d hd => hshaped.dim_le hd, ?_, hdiv, hcount⟩
    exact elementCount_eq_some_iff.mpr ⟨hpayload.leading, (count_eq_prod t).symm⟩

/-- A row of two bytes, written on a big-endian host. -/
def row : Bytes :=
  magic ++ [0, 0, 36, 0, 0, 0, 9, 72, 79, 83, 84, 0, 0, 0, 0, 0, 0, 0, 66, 0, 0, 0, 2, 0, 0, 0, 1, 0, 0, 0, 2,
    7, 8]

theorem decode_exact_row :
    decode row = .ok ⟨.uint8, [1, 2], [7, 8], "HOST", .big⟩ ∧ elementCount [1, 2] = some 2 := by
  have h : decode row = .ok ⟨.uint8, [1, 2], [7, 8], "HOST", .big⟩ := by decide
  obtain ⟨-, -, hcount, -, -⟩ := (decode_exact row).2.2 _ h
  exact ⟨h, hcount⟩

end TypedBlob

end ArrayBridge
