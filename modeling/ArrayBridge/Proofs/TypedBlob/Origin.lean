import ArrayBridge.Proofs.TypedBlob.Canonical

/-!
The platform that a blob names, as the reader shows it and as a platform to compare with. Replacing what is not text
in a name makes it longer, and a name too long for its field is cut to fit before it is compared.
-/
namespace ArrayBridge.TypedBlob

variable {b : Bytes} {t : TypedBlob}

theorem differsFrom_origin_iff (t : TypedBlob) : t.differsFrom t.origin = false ↔ t.origin.name = t.platform := by
  rw [← Bool.not_eq_true, differsFrom_iff, not_ne_iff, Platform.mk.injEq]
  exact and_iff_left rfl

theorem origin_name_eq_iff (t : TypedBlob) :
    t.origin.name = t.platform ↔ (Utf8.encode t.platform.toList).length ≤ 10 :=
  Platform.name_named_eq_iff t.order

theorem length_encode_platform (h : decode b = .ok t) :
    (Utf8.encode t.platform.toList).length = Utf8.replacedSize (nameBytes b) := by
  obtain ⟨-, -, -, hplatform⟩ := decode_eq_ok h
  rw [hplatform, nameAt, String.toList_ofList]
  exact Utf8.length_encode_decodeLossy (nameBytes b)

theorem replacedSize_le (h : Utf8.Valid (nameBytes b)) : Utf8.replacedSize (nameBytes b) ≤ 10 := by
  rw [← Utf8.length_encode_decodeLossy]
  have hform := encode_nameAt h
  rw [nameAt, String.toList_ofList] at hform
  calc (Utf8.encode (Utf8.decodeLossy (nameBytes b))).length
    _ = (nameBytes b).length := congrArg List.length hform
    _ ≤ 10 := length_nameBytes_le b

/-- A blob that was read is from its own origin unless its platform name is too long for the header, which it can
only be where something in it was replaced. Its origin is then the part of the name that fits. -/
theorem origin_exact (b : Bytes) (t : TypedBlob) (h : decode b = .ok t) :
    (t.differsFrom t.origin = false ↔ t.origin.name = t.platform) ∧
      (t.origin.name = t.platform ↔ (Utf8.encode t.platform.toList).length ≤ 10) ∧
      (Utf8.encode t.platform.toList).length = Utf8.replacedSize (nameBytes b) ∧
      (Utf8.Valid (nameBytes b) →
        t.differsFrom t.origin = false ∧ t.origin.name = t.platform ∧
          (Utf8.encode t.platform.toList).length ≤ 10) ∧
      t.origin.order = t.order ∧ t.origin.name.toList <+: t.platform.toList ∧
      (Utf8.encode t.origin.name.toList).length ≤ 10 := by
  have hlen := length_encode_platform h
  refine ⟨differsFrom_origin_iff t, origin_name_eq_iff t, hlen, ?_, rfl, ?_, ?_⟩
  · intro hvalid
    have hfits : (Utf8.encode t.platform.toList).length ≤ 10 := hlen ▸ replacedSize_le hvalid
    have hname := (origin_name_eq_iff t).mpr hfits
    exact ⟨(differsFrom_origin_iff t).mpr hname, hname, hfits⟩
  · have hprefix := Platform.fit_isPrefix Platform.nameLimit t.platform.toList
    rwa [origin, Platform.named, String.toList_ofList]
  · exact Platform.length_encode_name t.platform t.order

/-- A single byte from a little-endian host, with these bytes for the name of that host. -/
def namedByte (name : Bytes) : Bytes := magic ++ [0, 36, 0, 9, 0, 0, 0] ++ name.padTo 11 ++ [76, 0, 0, 0, 0, 7]

theorem origin_exact_replaced :
    ∃ t, decode (namedByte [72, 255]) = .ok t ∧ t.platform = "H\uFFFD" ∧ t.differsFrom t.origin = false := by
  have h : decode (namedByte [72, 255]) = .ok ⟨.uint8, [], [7], "H\uFFFD", .little⟩ := by decide
  obtain ⟨hdiffers, hname, hlen, -⟩ := origin_exact _ _ h
  refine ⟨_, h, rfl, hdiffers.mpr (hname.mpr ?_)⟩
  rw [hlen]
  decide

/-- Four ill-formed bytes are shown as twelve, of which nine are kept to compare with. -/
theorem differs_from_own_origin :
    decode (namedByte [255, 255, 255, 255]) = .ok ⟨.uint8, [], [7], "\uFFFD\uFFFD\uFFFD\uFFFD", .little⟩ ∧
      TypedBlob.origin ⟨.uint8, [], [7], "\uFFFD\uFFFD\uFFFD\uFFFD", .little⟩ = ⟨"\uFFFD\uFFFD\uFFFD", .little⟩ ∧
      TypedBlob.differsFrom ⟨.uint8, [], [7], "\uFFFD\uFFFD\uFFFD\uFFFD", .little⟩
        ⟨"\uFFFD\uFFFD\uFFFD", .little⟩ = true := by
  decide

end ArrayBridge.TypedBlob
