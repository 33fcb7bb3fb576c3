import ArrayBridge.Proofs.TypedBlob.Format
import ArrayBridge.TypedBlob.Decode

/-!
Reading a typed blob: which bytes are a blob, and which of the reader's refusals meets those that are not.
-/
namespace ArrayBridge.TypedBlob

variable {b : Bytes} {order : ByteOrder} {type : ElementType} {n : Nat} {dims : List Nat}

/-- What the bytes are, in the order in which the reader asks: each refusal presupposes that all earlier
checks pass. -/
inductive Verdict (b : Bytes) : Except BlobError TypedBlob → Prop
  | short : b.length < 36 → Verdict b (.error (.unsupportedHeader (.short b.length)))
  | badMagic : 36 ≤ b.length → b.take 13 ≠ magic → Verdict b (.error .badMagic)
  | orderFlag {f : UInt8} : Tagged b → b[31]? = some f → (∀ order : ByteOrder, f ≠ order.flag) →
      Verdict b (.error (.unsupportedHeader (.orderFlag f)))
  | version {order : ByteOrder} {v : Int} : Flagged b order → order.Stands b 14 2 v → v ≠ 36 →
      Verdict b (.error (.unsupportedVersion v 36))
  | elementType {order : ByteOrder} {v : Int} : Versioned b order → order.Stands b 16 4 v →
      (∀ type : ElementType, (type.id : Int) ≠ v) → Verdict b (.error (.unknownElementType v))
  | negativeCount {order : ByteOrder} {type : ElementType} {v : Int} : Typed b order type →
      order.Stands b 32 4 v → v < 0 → Verdict b (.error (.unsupportedHeader (.negativeCount v)))
  | truncated {order : ByteOrder} {type : ElementType} {n : Nat} : Typed b order type →
      order.Stands b 32 4 n → b.length < 36 + 4 * n →
      Verdict b (.error (.unsupportedHeader (.truncated n)))
  | negativeDim {order : ByteOrder} {type : ElementType} {n i : Nat} {v : Int} : Tabled b order type n →
      i < n → (∀ j < i, ∃ d : Nat, order.Stands b (36 + 4 * j) 4 d) → order.Stands b (36 + 4 * i) 4 v →
      v < 0 → Verdict b (.error (.unsupportedHeader (.negativeDim v (i + 1))))
  | overflow {order : ByteOrder} {type : ElementType} {dims : List Nat} : Shaped b order type dims →
      (∀ p, ¬Payload type dims p) →
      Verdict b (.error (.sizeMismatch 0xFFFFFFFFFFFFFFFF (b.length - (36 + 4 * dims.length))))
  | mismatch {order : ByteOrder} {type : ElementType} {dims : List Nat} {p : Nat} :
      Shaped b order type dims → Payload type dims p → p ≠ b.length - (36 + 4 * dims.length) →
      Verdict b (.error (.sizeMismatch p (b.length - (36 + 4 * dims.length))))
  | blob {order : ByteOrder} {type : ElementType} {dims : List Nat} : Shaped b order type dims →
      Payload type dims (b.length - (36 + 4 * dims.length)) →
      Verdict b (.ok ⟨type, dims, b.drop (36 + 4 * dims.length), nameAt b, order⟩)

/-! The reader, check by check. -/

def checkSize (b : Bytes) (order : ByteOrder) (type : ElementType) (dims : List Nat) (data : Bytes) :
    Except BlobError TypedBlob :=
  if payloadSize type dims ≠ some data.length then
    .error (.sizeMismatch ((payloadSize type dims).getD maxCount) data.length)
  else .ok ⟨type, dims, data, nameAt b, order⟩

def checkTable (b : Bytes) (order : ByteOrder) (type : ElementType) (n : Nat) : Except BlobError TypedBlob :=
  (dimsFrom order n 1 (b.drop 36)).bind fun dims => checkSize b order type dims (b.drop (36 + 4 * n))

def checkCount (b : Bytes) (order : ByteOrder) (type : ElementType) : Except BlobError TypedBlob :=
  if numberAt order 32 4 b < 0 then .error (.unsupportedHeader (.negativeCount (numberAt order 32 4 b)))
  else if b.length < 36 + 4 * (numberAt order 32 4 b).toNat then
    .error (.unsupportedHeader (.truncated (numberAt order 32 4 b).toNat))
  else checkTable b order type (numberAt order 32 4 b).toNat

def checkType (b : Bytes) (order : ByteOrder) : Except BlobError TypedBlob :=
  match ElementType.ofId? (numberAt order 16 4 b) with
  | none => .error (.unknownElementType (numberAt order 16 4 b))
  | some type => checkCount b order type

def checkVersion (b : Bytes) (order : ByteOrder) : Except BlobError TypedBlob :=
  if numberAt order 14 2 b ≠ 36 then .error (.unsupportedVersion (numberAt order 14 2 b) 36)
  else checkType b order

def checkFlag (b : Bytes) : Except BlobError TypedBlob :=
  match ByteOrder.ofFlag? (b.getD 31 0) with
  | none => .error (.unsupportedHeader (.orderFlag (b.getD 31 0)))
  | some order => checkVersion b order

theorem decode_eq (b : Bytes) :
    decode b =
      if b.length < 36 then .error (.unsupportedHeader (.short b.length))
      else if b.take 13 ≠ magic then .error .badMagic
      else checkFlag b := by
  unfold decode checkFlag
  dsimp only
  cases ByteOrder.ofFlag? (b.getD 31 0) with
  | none => rfl
  | some order =>
      unfold checkVersion checkType
      dsimp only
      cases ElementType.ofId? (numberAt order 16 4 b) <;> rfl

theorem numberAt_eq {i k : Nat} {v : Int} (h : order.Stands b i k v) (hk : 0 < k) :
    numberAt order i k b = v := h.toInt_eq hk

theorem Tagged.decode_eq (h : Tagged b) : decode b = checkFlag b := by
  rw [TypedBlob.decode_eq, if_neg (Nat.not_lt.mpr h.long), if_neg (not_not_intro h.tag)]

theorem Flagged.decode_eq (h : Flagged b order) : decode b = checkVersion b order := by
  have hflag : b.getD 31 0 = order.flag := by
    rw [List.getD_eq_getElem?_getD, h.flag, Option.getD_some]
  rw [h.toTagged.decode_eq, checkFlag, hflag, ByteOrder.ofFlag?_eq_some_iff.mpr rfl]

theorem Versioned.decode_eq (h : Versioned b order) : decode b = checkType b order := by
  rw [h.toFlagged.decode_eq, checkVersion, numberAt_eq h.version (by decide), if_neg (not_not_intro rfl)]

theorem Typed.decode_eq (h : Typed b order type) : decode b = checkCount b order type := by
  rw [h.toVersioned.decode_eq, checkType, numberAt_eq h.id (by decide), ElementType.ofId?_eq_some_iff.mpr rfl]

theorem Tabled.decode_eq (h : Tabled b order type n) : decode b = checkTable b order type n := by
  rw [h.toTyped.decode_eq, checkCount, numberAt_eq h.count (by decide), if_neg (by omega), Int.toNat_natCast,
    if_neg (Nat.not_lt.mpr h.table)]

theorem numberAt_drop (order : ByteOrder) (i j n : Nat) (b : Bytes) :
    numberAt order i n (b.drop j) = numberAt order (j + i) n b := by
  rw [numberAt, numberAt, Bytes.slice_drop]

theorem dimsFrom_succ (order : ByteOrder) (n position : Nat) (b : Bytes) :
    dimsFrom order (n + 1) position b =
      if numberAt order 0 4 b < 0 then
        .error (.unsupportedHeader (.negativeDim (numberAt order 0 4 b) position))
      else (dimsFrom order n (position + 1) (b.drop 4)).map ((numberAt order 0 4 b).toNat :: ·) := rfl

theorem dimsFrom_eq_ok (position : Nat)
    (h : ∀ (i : Nat) (hi : i < dims.length), numberAt order (4 * i) 4 b = (dims[i] : Nat)) :
    dimsFrom order dims.length position b = .ok dims := by
  induction dims generalizing b position with
  | nil => rfl
  | cons d ds ih =>
      have hd : numberAt order 0 4 b = d := h 0 (Nat.succ_pos _)
      have hds : dimsFrom order ds.length (position + 1) (b.drop 4) = .ok ds := by
        refine ih (position + 1) fun i hi => ?_
        rw [numberAt_drop, show 4 + 4 * i = 4 * (i + 1) by omega]
        exact h (i + 1) (Nat.succ_lt_succ hi)
      rw [List.length_cons, dimsFrom_succ, hd, if_neg (by omega), hds, Int.toNat_natCast]
      rfl

theorem dimsFrom_eq_error {i : Nat} (position : Nat) (hi : i < n)
    (hbefore : ∀ j < i, 0 ≤ numberAt order (4 * j) 4 b) (hneg : numberAt order (4 * i) 4 b < 0) :
    dimsFrom order n position b =
      .error (.unsupportedHeader (.negativeDim (numberAt order (4 * i) 4 b) (position + i))) := by
  induction i generalizing b n position with
  | zero =>
      obtain ⟨n, rfl⟩ : ∃ m, n = m + 1 := ⟨n - 1, by omega⟩
      rw [dimsFrom_succ, if_pos hneg]
      rfl
  | succ i ih =>
      obtain ⟨n, rfl⟩ : ∃ m, n = m + 1 := ⟨n - 1, by omega⟩
      have hshift : ∀ j, numberAt order (4 * j) 4 (b.drop 4) = numberAt order (4 * (j + 1)) 4 b := fun j => by
        rw [numberAt_drop, show 4 + 4 * j = 4 * (j + 1) by omega]
      have hrest := ih (b := b.drop 4) (position + 1) (Nat.lt_of_succ_lt_succ hi)
        (fun j hj => by rw [hshift]; exact hbefore (j + 1) (Nat.succ_lt_succ hj)) (by rw [hshift]; exact hneg)
      rw [dimsFrom_succ, if_neg (Int.not_lt.mpr (hbefore 0 (Nat.succ_pos i))), hrest, hshift]
      simp only [Except.map, Nat.add_assoc, Nat.add_comm 1 i]

theorem Shaped.decode_eq (h : Shaped b order type dims) :
    decode b = checkSize b order type dims (b.drop (36 + 4 * dims.length)) := by
  have hdims : dimsFrom order dims.length 1 (b.drop 36) = .ok dims := by
    refine dimsFrom_eq_ok 1 fun i hi => ?_
    rw [numberAt_drop]
    exact numberAt_eq (h.entries i hi) (by decide)
  rw [h.toTabled.decode_eq, checkTable, hdims]
  rfl

theorem Verdict.decode_eq {r : Except BlobError TypedBlob} (h : Verdict b r) : decode b = r := by
  cases h with
  | short h => rw [TypedBlob.decode_eq, if_pos h]
  | badMagic h hne => rw [TypedBlob.decode_eq, if_neg (Nat.not_lt.mpr h), if_pos hne]
  | orderFlag h hf hne =>
      rw [h.decode_eq, checkFlag, List.getD_eq_getElem?_getD, hf, Option.getD_some,
        ByteOrder.ofFlag?_eq_none_iff.mpr hne]
  | version h hv hne =>
      rw [h.decode_eq, checkVersion, numberAt_eq hv (by decide), if_pos hne]
  | elementType h hv hne =>
      rw [h.decode_eq, checkType, numberAt_eq hv (by decide), ElementType.ofId?_eq_none_iff.mpr hne]
  | negativeCount h hv hneg =>
      rw [h.decode_eq, checkCount, numberAt_eq hv (by decide), if_pos hneg]
  | truncated h hv hlt =>
      rw [h.decode_eq, checkCount, numberAt_eq hv (by decide), if_neg (by omega), Int.toNat_natCast, if_pos hlt]
  | @negativeDim order type n i v h hi hbefore hv hneg =>
      have hnum : numberAt order (4 * i) 4 (b.drop 36) = v := by
        rw [numberAt_drop]
        exact numberAt_eq hv (by decide)
      have hnonneg : ∀ j < i, 0 ≤ numberAt order (4 * j) 4 (b.drop 36) := fun j hj => by
        obtain ⟨d, hd⟩ := hbefore j hj
        rw [numberAt_drop, numberAt_eq hd (by decide)]
        omega
      rw [h.decode_eq, checkTable, dimsFrom_eq_error 1 hi hnonneg (hnum.symm ▸ hneg), hnum, Nat.add_comm 1 i]
      rfl
  | overflow h hnone =>
      rw [h.decode_eq, checkSize, payloadSize_eq_none_iff.mpr hnone, if_pos nofun, List.length_drop]
      rfl
  | mismatch h hp hne =>
      have hsize : ¬some _ = some (b.length - _) := fun he => hne (Option.some.inj he)
      rw [h.decode_eq, checkSize, payloadSize_eq_some_iff.mpr hp, List.length_drop, if_pos hsize,
        Option.getD_some]
  | blob h hp =>
      rw [h.decode_eq, checkSize, List.length_drop, payloadSize_eq_some_iff.mpr hp,
        if_neg (not_not_intro rfl)]

theorem exists_dims_or_negative (n : Nat) (h : 36 + 4 * n ≤ b.length) :
    (∃ dims : List Nat, dims.length = n ∧
      ∀ (i : Nat) (h : i < dims.length), order.Stands b (36 + 4 * i) 4 (dims[i] : Nat)) ∨
    ∃ i < n, ∃ v < 0, (∀ j < i, ∃ d : Nat, order.Stands b (36 + 4 * j) 4 d) ∧
      order.Stands b (36 + 4 * i) 4 v := by
  induction n with
  | zero => exact .inl ⟨[], rfl, nofun⟩
  | succ n ih =>
      rcases ih (by omega) with ⟨dims, hlen, hdims⟩ | ⟨i, hi, v, hv, hbefore, hstands⟩
      · obtain ⟨v, hv⟩ := order.exists_stands (by omega : 36 + 4 * n + 4 ≤ b.length)
        by_cases hneg : v < 0
        · refine .inr ⟨n, Nat.lt_succ_self n, v, hneg, fun j hj => ?_, hv⟩
          exact ⟨dims[j], hdims j (by omega)⟩
        · refine .inl ⟨dims ++ [v.toNat], by rw [List.length_append, hlen, List.length_singleton], ?_⟩
          intro i hi
          rw [List.getElem_append]
          split
          case isTrue hlt => exact hdims i hlt
          case isFalse hge =>
            rw [List.length_append, List.length_singleton] at hi
            obtain rfl : i = n := by omega
            rw [List.getElem_singleton, Int.toNat_of_nonneg (Int.not_lt.mp hneg)]
            exact hv
      · exact .inr ⟨i, Nat.lt_succ_of_lt hi, v, hv, hbefore, hstands⟩

theorem exists_verdict (b : Bytes) : ∃ r, Verdict b r := by
  by_cases hlong : 36 ≤ b.length
  case neg => exact ⟨_, .short (Nat.not_le.mp hlong)⟩
  by_cases htag : b.take 13 = magic
  case neg => exact ⟨_, .badMagic hlong htag⟩
  have htagged : Tagged b := ⟨hlong, htag⟩
  have hf : b[31]? = some b[31] := List.getElem?_eq_getElem (by omega)
  by_cases hflag : ∃ order : ByteOrder, b[31] = order.flag
  case neg => exact ⟨_, .orderFlag htagged hf fun order he => hflag ⟨order, he⟩⟩
  obtain ⟨order, he⟩ := hflag
  have hflagged : Flagged b order := ⟨htagged, he ▸ hf⟩
  obtain ⟨version, hversion⟩ := order.exists_stands (by omega : 14 + 2 ≤ b.length)
  by_cases h36 : version = 36
  case neg => exact ⟨_, .version hflagged hversion h36⟩
  have hversioned : Versioned b order := ⟨hflagged, h36 ▸ hversion⟩
  obtain ⟨id, hid⟩ := order.exists_stands (by omega : 16 + 4 ≤ b.length)
  by_cases htype : ∃ type : ElementType, (type.id : Int) = id
  case neg => exact ⟨_, .elementType hversioned hid fun type he => htype ⟨type, he⟩⟩
  obtain ⟨type, rfl⟩ := htype
  have htyped : Typed b order type := ⟨hversioned, hid⟩
  obtain ⟨count, hcount⟩ := order.exists_stands (by omega : 32 + 4 ≤ b.length)
  by_cases hneg : count < 0
  case pos => exact ⟨_, .negativeCount htyped hcount hneg⟩
  obtain ⟨n, rfl⟩ := Int.eq_ofNat_of_zero_le (Int.not_lt.mp hneg)
  by_cases htable : 36 + 4 * n ≤ b.length
  case neg => exact ⟨_, .truncated htyped hcount (Nat.not_le.mp htable)⟩
  have htabled : Tabled b order type n := ⟨htyped, hcount, htable⟩
  rcases exists_dims_or_negative n htable with ⟨dims, rfl, hdims⟩ | ⟨i, hi, v, hv, hbefore, hstands⟩
  case inr => exact ⟨_, .negativeDim htabled hi hbefore hstands hv⟩
  have hshaped : Shaped b order type dims := ⟨htabled, hdims⟩
  by_cases hpayload : ∃ p, Payload type dims p
  case neg => exact ⟨_, .overflow hshaped fun p hp => hpayload ⟨p, hp⟩⟩
  obtain ⟨p, hp⟩ := hpayload
  by_cases hsize : p = b.length - (36 + 4 * dims.length)
  case neg => exact ⟨_, .mismatch hshaped hp hsize⟩
  exact ⟨_, .blob hshaped (hsize ▸ hp)⟩

theorem verdict_decode (b : Bytes) : Verdict b (decode b) := by
  obtain ⟨r, h⟩ := exists_verdict b
  rwa [h.decode_eq]

/-- What the reader gives for bytes it takes: the header, and whatever follows it as the elements. -/
theorem decode_eq_ok {t : TypedBlob} (h : decode b = .ok t) :
    Shaped b t.order t.type t.dims ∧ Payload t.type t.dims t.data.length ∧
      t.data = b.drop (36 + 4 * t.dims.length) ∧ t.platform = nameAt b := by
  have hv := verdict_decode b
  rw [h] at hv
  cases hv with
  | blob hshaped hp => exact ⟨hshaped, by rwa [List.length_drop], rfl, rfl⟩

theorem length_of_decode {t : TypedBlob} (h : decode b = .ok t) : b.length = 36 + 4 * t.dims.length + t.data.length := by
  obtain ⟨hshaped, -, hdata, -⟩ := decode_eq_ok h
  have htable := hshaped.table
  rw [hdata, List.length_drop]
  omega

end ArrayBridge.TypedBlob
