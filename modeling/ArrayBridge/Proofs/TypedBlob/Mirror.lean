import ArrayBridge.Proofs.TypedBlob.Canonical

/-!
The two byte orders. They write the same blob but for the flag and the numbers of the header, which stand in reverse;
the version is among them, so that no header reads in both orders.
-/
namespace ArrayBridge.TypedBlob

variable {name : String} {type : ElementType} {dims : List Nat} {data : Bytes} {max : Nat} {b b₂ : Bytes} {t : TypedBlob}

/-- `b` is little-endian and `b₂` is the same blob in the other order. -/
structure Mirrored (dims : Nat) (b b₂ : Bytes) : Prop where
  length : b.length = b₂.length
  outside : ∀ k, k < 14 ∨ 20 ≤ k ∧ k < 31 ∨ 36 + 4 * dims ≤ k → b[k]? = b₂[k]?
  version : b.slice 14 2 = (b₂.slice 14 2).reverse
  id : b.slice 16 4 = (b₂.slice 16 4).reverse
  flags : b[31]? = some ByteOrder.little.flag ∧ b₂[31]? = some ByteOrder.big.flag
  count : b.slice 32 4 = (b₂.slice 32 4).reverse
  entries : ∀ i < dims, b.slice (36 + 4 * i) 4 = (b₂.slice (36 + 4 * i) 4).reverse

theorem Layout.mirrored (hb : Layout (.named name .little) type dims data b)
    (hc : Layout (.named name .big) type dims data b₂) : Mirrored dims.length b b₂ where
  length := hb.length_eq.trans hc.length_eq.symm
  outside := fun _ hk => hb.getElem?_outside hc rfl hk
  version := hb.version.slice_reverse hc.version (by decide)
  id := hb.id.slice_reverse hc.id (by decide)
  flags := ⟨hb.flag, hc.flag⟩
  count := hb.count.slice_reverse hc.count (by decide)
  entries := fun i hi => (hb.entries i hi).slice_reverse (hc.entries i hi) (by decide)

/-- No reason to refuse an array has to do with the byte order. -/
theorem Written.error_other {order order' : ByteOrder} {e : BlobError}
    (h : Written (.named name order) type dims data max (.error e)) :
    Written (.named name order') type dims data max (.error e) := by
  cases h with
  | uncounted hover => exact .uncounted hover
  | large hp hle hover => exact .large hp hle hover
  | uneven hp hle hdims hne => exact .uneven hp hle hdims hne

theorem exists_encodeFor_other {order : ByteOrder} (order' : ByteOrder)
    (h : encodeFor (.named name order) type dims data max = .ok b) :
    ∃ b₂, encodeFor (.named name order') type dims data max = .ok b₂ := by
  have hwritten : Written (.named name order) type dims data max _ := written_encodeFor name order max
  rw [h] at hwritten
  cases hwritten with
  | blob hp hle hdims hlayout =>
      exact ⟨_, (Written.blob hp hle hdims (layout_of_limits name order' max hle hdims)).encodeFor_eq⟩

theorem encodeFor_error_other {order : ByteOrder} (order' : ByteOrder) {e : BlobError}
    (h : encodeFor (.named name order) type dims data max = .error e) :
    encodeFor (.named name order') type dims data max = .error e := by
  have hwritten : Written (.named name order) type dims data max _ := written_encodeFor name order max
  rw [h] at hwritten
  exact hwritten.error_other.encodeFor_eq

theorem decode_other {order order' : ByteOrder} (hb : encodeFor (.named name order) type dims data max = .ok b)
    (hc : encodeFor (.named name order') type dims data max = .ok b₂) (h : decode b = .ok t) :
    decode b₂ = .ok { t with order := order' } := by
  rw [decode_of_encodeFor hb] at h
  cases h
  exact decode_of_encodeFor hc

/-- The version 36 with its two bytes in reverse. -/
theorem stands_version_other {order : ByteOrder} (h : order.Stands b 14 2 36) : order.other.Stands b 14 2 9216 := by
  apply h.other
  · constructor <;> decide
  · decide

theorem flagged_set {order order' : ByteOrder} (h : Flagged b order) : Flagged (b.set 31 order'.flag) order' := by
  have hlong := h.long
  have hset : 36 ≤ (b.set 31 order'.flag).length := by rwa [List.length_set]
  refine ⟨h.toTagged.congr hset fun k hk => ?_, ?_⟩
  · exact List.getElem?_set_ne (by omega)
  · exact List.getElem?_set_self (by omega)

theorem decode_set_flag (h : decode b = .ok t) :
    decode (b.set 31 t.order.other.flag) = .error (.unsupportedVersion 9216 36) := by
  obtain ⟨hshaped, -, -, -⟩ := decode_eq_ok h
  have hversion : t.order.other.Stands (b.set 31 t.order.other.flag) 14 2 9216 :=
    (stands_version_other hshaped.version).congr fun k _ hk => List.getElem?_set_ne (by omega)
  exact (Verdict.version (flagged_set hshaped.toFlagged) hversion (by decide)).decode_eq

/-- In the two byte orders an array is refused for the same reason, or written as blobs that mirror each other and read
as the same but for the order. A blob with the flag of the other order is of a version that is not read. -/
theorem orders_exact :
    (∀ (name : String) (type : ElementType) (dims : List Nat) (data : Bytes) (max : Nat),
      (∃ e, encodeFor (.named name .little) type dims data max = .error e ∧
          encodeFor (.named name .big) type dims data max = .error e) ∨
        ∃ b b₂ t, encodeFor (.named name .little) type dims data max = .ok b ∧
          encodeFor (.named name .big) type dims data max = .ok b₂ ∧ Mirrored dims.length b b₂ ∧
            decode b = .ok t ∧ t.order = .little ∧ decode b₂ = .ok { t with order := .big }) ∧
      ∀ b t, decode b = .ok t → decode (b.set 31 t.order.other.flag) = .error (.unsupportedVersion 9216 36) := by
  refine ⟨fun name type dims data max => ?_, fun b t h => decode_set_flag h⟩
  cases hb : encodeFor (.named name .little) type dims data max with
  | error e => exact .inl ⟨e, rfl, encodeFor_error_other .big hb⟩
  | ok b =>
      obtain ⟨b₂, hc⟩ := exists_encodeFor_other .big hb
      have hread := decode_of_encodeFor hb
      have hmirrored := (layout_of_encodeFor hb).2.mirrored (layout_of_encodeFor hc).2
      exact .inr ⟨b, b₂, _, rfl, hc, hmirrored, hread, rfl, decode_other hb hc hread⟩

/-- A row from a big-endian host under the flag of the other order. -/
theorem orders_exact_stray :
    stray[31]? = some ByteOrder.big.flag ∧
      decode (stray.set 31 ByteOrder.little.flag) = .error (.unsupportedVersion 9216 36) := by
  have h : decode stray = .ok ⟨.uint8, [1, 2], [7, 8], "Hé", .big⟩ := by decide
  have hset := orders_exact.2 stray _ h
  exact ⟨rfl, hset⟩

end ArrayBridge.TypedBlob
