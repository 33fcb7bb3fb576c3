import ArrayBridge.Proofs.TypedBlob.RoundTrip

/-!
What was read, written again. The reader takes more than the writer writes: it passes over the padding and
what stands behind the name, and writing clears these bytes and no others.
-/
namespace ArrayBridge.TypedBlob

/-- The platform name of a header, in bytes. -/
def nameBytes (b : Bytes) : Bytes := (b.slice 20 10).untilNul

/-- The byte of padding, and the bytes from the end of the platform name to that of its field. -/
def Ignored (b : Bytes) (k : Nat) : Prop := k = 13 ∨ 20 + (nameBytes b).length ≤ k ∧ k ≤ 30

instance (b : Bytes) (k : Nat) : Decidable (Ignored b k) := inferInstanceAs (Decidable (_ ∨ _ ∧ _))

variable {b b₂ : Bytes} {origin : Platform} {type : ElementType} {dims : List Nat} {data : Bytes} {t : TypedBlob}

theorem nameBytes_isPrefix (b : Bytes) : nameBytes b <+: b.slice 20 10 := List.takeWhile_prefix _

theorem length_nameBytes_le (b : Bytes) : (nameBytes b).length ≤ 10 :=
  (nameBytes_isPrefix b).length_le.trans (List.length_take_le _ _)

theorem nameBytes_getElem? {k : Nat} (h : k < (nameBytes b).length) : (nameBytes b)[k]? = b[20 + k]? := by
  have hten := length_nameBytes_le b
  have hfield := List.prefix_iff_getElem?.mp (nameBytes_isPrefix b) k h
  rw [List.getElem?_eq_getElem h, ← hfield, Bytes.getElem?_slice, if_pos (by omega)]

/-- A name that is text comes out of the lenient reader as that text. -/
theorem encode_nameAt (h : Utf8.Valid (nameBytes b)) : Utf8.encode (nameAt b).toList = nameBytes b := by
  obtain ⟨cs, hcs⟩ := h
  have hform := Utf8.decode?_eq_some_iff.mp hcs
  have hname : (nameAt b).toList = cs := by
    rw [nameAt, String.toList_ofList]
    exact (congrArg Utf8.decodeLossy hform.symm).trans (Utf8.decodeLossy_encode cs)
  rw [hname, hform]

/-- Outside the ignored bytes a blob with this content is as the writer writes it. -/
theorem Layout.getElem?_eq (hc : Layout origin type dims data b₂) (hb : Shaped b origin.order type dims)
    (hdata : data = b.drop (36 + 4 * dims.length)) (hname : Utf8.encode origin.name.toList = nameBytes b)
    {k : Nat} (hk : ¬Ignored b k) : b₂[k]? = b[k]? := by
  obtain ⟨h13, hfield⟩ := not_or.mp hk
  by_cases hin : 20 ≤ k ∧ k ≤ 30
  · -- Not ignored, so within the name itself.
    obtain ⟨j, rfl⟩ := Nat.exists_eq_add_of_le hin.1
    have hj : j < (nameBytes b).length := by omega
    have hc' := Bytes.getElem?_slice 20 11 j b₂
    rw [hc.name, hname, List.getElem?_append_left hj, nameBytes_getElem? hj, if_pos (by omega)] at hc'
    exact hc'.symm
  by_cases hhead : k < 36 + 4 * dims.length
  · exact hc.toShaped.getElem?_eq hb h13 (by omega) hhead
  · exact Bytes.getElem?_eq_of_drop (hc.elements.trans hdata) (Nat.not_lt.mp hhead)

/-- The writer leaves zeros where the reader does not look. -/
theorem Layout.getElem?_ignored (hc : Layout origin type dims data b₂)
    (hname : Utf8.encode origin.name.toList = nameBytes b) {k : Nat} (hk : Ignored b k) : b₂[k]? = some 0 := by
  have hten := length_nameBytes_le b
  rcases hk with rfl | ⟨hlow, hhigh⟩
  · exact hc.padding
  · have hc' := Bytes.getElem?_slice 20 11 (k - 20) b₂
    rw [hc.name, hname, List.getElem?_append_right (by omega), List.getElem?_replicate_of_lt (by omega),
      if_pos (by omega), Nat.add_sub_cancel' (by omega)] at hc'
    exact hc'.symm

theorem exists_encodeFor (hsize : b.length ≤ 0x7FFFFFFF) (h : decode b = .ok t) :
    ∃ b₂, encodeFor t.origin t.type t.dims t.data maxSize = .ok b₂ ∧ Layout t.origin t.type t.dims t.data b₂ := by
  obtain ⟨hshaped, hp, -, -⟩ := decode_eq_ok h
  have hlen : 36 + 4 * t.dims.length + t.data.length ≤ min maxSize 0x7FFFFFFF := by
    have hmax : maxSize = 0x7FFFFFFF := rfl
    rw [← length_of_decode h]
    omega
  have hdims : ∀ d ∈ t.dims, d ≤ 0x7FFFFFFF := fun d hd => hshaped.dim_le hd
  have hlayout : Layout t.origin t.type t.dims t.data _ := layout_of_limits t.platform t.order maxSize hlen hdims
  exact ⟨_, (Written.blob hp hlen hdims hlayout).encodeFor_eq, hlayout⟩

theorem origin_eq (h : decode b = .ok t) (hname : Utf8.Valid (nameBytes b)) : t.origin = ⟨t.platform, t.order⟩ := by
  obtain ⟨-, -, -, hplatform⟩ := decode_eq_ok h
  refine Platform.named_eq t.order ?_
  rw [hplatform, encode_nameAt hname]
  exact length_nameBytes_le b

/-- A blob that was read comes back from the writer with the ignored bytes cleared, and reads as the same. -/
theorem encodeFor_decode (b : Bytes) (t : TypedBlob) (hsize : b.length ≤ 0x7FFFFFFF) (h : decode b = .ok t)
    (hname : Utf8.Valid (nameBytes b)) :
    ∃ b₂, encodeFor t.origin t.type t.dims t.data maxSize = .ok b₂ ∧ b₂.length = b.length ∧
      (∀ k, ¬Ignored b k → b₂[k]? = b[k]?) ∧ (∀ k, Ignored b k → b₂[k]? = some 0) ∧ decode b₂ = .ok t ∧
      ((∀ k, Ignored b k → b[k]? = some 0) → b₂ = b) := by
  obtain ⟨b₂, hencode, hlayout⟩ := exists_encodeFor hsize h
  obtain ⟨hshaped, -, hdata, hplatform⟩ := decode_eq_ok h
  have horigin := origin_eq h hname
  have hform : Utf8.encode t.platform.toList = nameBytes b := by rw [hplatform, encode_nameAt hname]
  have hback : decode b₂ = .ok t := by
    have hvisible : Platform.visible t.platform = t.platform := by
      apply Platform.visible_of_untilNul
      rw [hform, nameBytes, Bytes.untilNul_untilNul]
    have hdecode := decode_of_encodeFor hencode
    rwa [← origin, horigin, hvisible] at hdecode
  rw [horigin] at hlayout
  have hsame : ∀ k, ¬Ignored b k → b₂[k]? = b[k]? := fun k hk => hlayout.getElem?_eq hshaped hdata hform hk
  have hzero : ∀ k, Ignored b k → b₂[k]? = some 0 := fun k hk => hlayout.getElem?_ignored hform hk
  refine ⟨b₂, hencode, ?_, hsame, hzero, hback, fun hb => List.ext_getElem? fun k => ?_⟩
  · have htable := hshaped.table
    rw [hlayout.length_eq, hdata, List.length_drop, Nat.add_sub_cancel' htable]
  · by_cases hk : Ignored b k
    · rw [hzero k hk, hb k hk]
    · exact hsame k hk

/-- A row from a big-endian host, with a padding byte of seven and more bytes behind the name `Hé`. -/
def stray : Bytes :=
  magic ++ [7, 0, 36, 0, 0, 0, 9, 72, 195, 169, 0, 1, 2, 3, 4, 5, 6, 255, 66, 0, 0, 0, 2, 0, 0, 0, 1, 0, 0, 0, 2,
    7, 8]

theorem encodeFor_decode_stray :
    decode stray = .ok ⟨.uint8, [1, 2], [7, 8], "Hé", .big⟩ ∧ Utf8.Valid (nameBytes stray) ∧
      ∃ b₂, encodeFor (.named "Hé" .big) .uint8 [1, 2] [7, 8] maxSize = .ok b₂ ∧ b₂.length = stray.length ∧
        b₂[13]? = some 0 ∧ b₂[22]? = some 169 ∧ b₂[30]? = some 0 ∧
        decode b₂ = .ok ⟨.uint8, [1, 2], [7, 8], "Hé", .big⟩ := by
  have h : decode stray = .ok ⟨.uint8, [1, 2], [7, 8], "Hé", .big⟩ := by decide
  have hname : Utf8.Valid (nameBytes stray) := ⟨['H', 'é'], by decide⟩
  obtain ⟨b₂, hencode, hlen, hsame, hzero, hback, -⟩ := encodeFor_decode stray _ (by decide) h hname
  refine ⟨h, hname, b₂, hencode, hlen, hzero 13 (by decide), ?_, hzero 30 (by decide), hback⟩
  rw [hsame 22 (by decide)]
  decide

end ArrayBridge.TypedBlob
