import ArrayBridge.Proofs.TypedBlob.Reading
import ArrayBridge.Proofs.TypedBlob.Writing

/-!
What was written reads back. Writer and reader meet at the layout: the one produces nothing else, and the
other takes all of it.
-/
namespace ArrayBridge.TypedBlob

variable {origin : Platform} {type : ElementType} {dims : List Nat} {data b : Bytes}

/-- The name field without its last byte, which is all the reader looks at. -/
theorem Layout.slice_name (h : Layout origin type dims data b)
    (hname : (Utf8.encode origin.name.toList).length ≤ 10) :
    b.slice 20 10 = Utf8.encode origin.name.toList ++
      List.replicate (10 - (Utf8.encode origin.name.toList).length) 0 := by
  have hfield := Bytes.slice_slice (i := 20) b (by decide : 0 + 10 ≤ 11)
  rw [h.name] at hfield
  rw [← hfield, Bytes.slice, List.drop_zero, List.take_append, List.take_of_length_le hname, List.take_replicate,
    Nat.min_eq_left (by omega)]

theorem Layout.nameAt_eq (h : Layout origin type dims data b)
    (hname : (Utf8.encode origin.name.toList).length ≤ 10) : nameAt b = Platform.visible origin.name := by
  rw [nameAt, Platform.nameLimit, h.slice_name hname, Bytes.untilNul_append_zeros, Utf8.untilNul_encode,
    Utf8.decodeLossy_encode]
  rfl

theorem Layout.decode_eq (h : Layout origin type dims data b)
    (hname : (Utf8.encode origin.name.toList).length ≤ 10) (hp : Payload type dims data.length) :
    decode b = .ok ⟨type, dims, data, Platform.visible origin.name, origin.order⟩ := by
  have hrest : b.length - (36 + 4 * dims.length) = data.length := by
    rw [h.length_eq, Nat.add_sub_cancel_left]
  have hblob := (Verdict.blob h.toShaped (hrest ▸ hp)).decode_eq
  rwa [h.elements, h.nameAt_eq hname] at hblob

theorem layout_of_encodeFor {name : String} {order : ByteOrder} {max : Nat}
    (h : encodeFor (.named name order) type dims data max = .ok b) :
    Payload type dims data.length ∧ Layout (.named name order) type dims data b := by
  have hwritten : Written (.named name order) type dims data max _ := written_encodeFor name order max
  rw [h] at hwritten
  cases hwritten with
  | blob hp hle hdims hlayout => exact ⟨hp, hlayout⟩

theorem decode_of_encodeFor {name : String} {order : ByteOrder} {max : Nat}
    (h : encodeFor (.named name order) type dims data max = .ok b) :
    decode b = .ok ⟨type, dims, data, Platform.visible (Platform.named name order).name, order⟩ := by
  obtain ⟨hp, hlayout⟩ := layout_of_encodeFor h
  exact hlayout.decode_eq (Platform.length_encode_name name order) hp

theorem differsFrom_iff (t : TypedBlob) (host : Platform) :
    t.differsFrom host = true ↔ host ≠ ⟨t.platform, t.order⟩ := by
  obtain ⟨name, order⟩ := host
  simp only [differsFrom, ne_eq, Platform.mk.injEq, Bool.or_eq_true, decide_eq_true_eq]
  rw [← not_and_or, not_iff_not]
  constructor
  · rintro ⟨horder, hname⟩
    exact ⟨hname.symm, horder.symm⟩
  · rintro ⟨hname, horder⟩
    exact ⟨horder.symm, hname.symm⟩

/-- An array comes back from its blob as it was, and the platform with the name as far as it shows. A name
without NUL shows in full, so that the blob differs from each other host and from no own one. -/
theorem decode_encodeFor (name : String) (order : ByteOrder) (type : ElementType) (dims : List Nat)
    (data : Bytes) (max : Nat) (b : Bytes) (h : encodeFor (.named name order) type dims data max = .ok b) :
    decode b = .ok ⟨type, dims, data, Platform.visible (Platform.named name order).name, order⟩ ∧
      ('\x00' ∉ (Platform.named name order).name.toList →
        ∃ t, decode b = .ok t ∧ t.platform = (Platform.named name order).name ∧
          t.origin = .named name order ∧ ∀ host, t.differsFrom host = true ↔ host ≠ .named name order) := by
  have hdecode := decode_of_encodeFor h
  refine ⟨hdecode, fun hnul => ⟨_, hdecode, ?_, ?_, ?_⟩⟩
  · exact Platform.visible_eq_self hnul
  · rw [origin, Platform.visible_eq_self hnul]
    exact Platform.named_name name order
  · intro host
    rw [differsFrom_iff, Platform.visible_eq_self hnul]
    rfl

/-- A name with a NUL, too long by its last character. -/
theorem decode_encodeFor_scalar :
    ∃ b, encodeFor (.named "AB\x00CDEFGHé" .big) .double [] [0, 0, 0, 0, 0, 0, 240, 63] 44 = .ok b ∧
      decode b = .ok ⟨.double, [], [0, 0, 0, 0, 0, 0, 240, 63], "AB", .big⟩ := by
  have h : encodeFor (.named "AB\x00CDEFGHé" .big) .double [] [0, 0, 0, 0, 0, 0, 240, 63] 44 =
      .ok (layout (.named "AB\x00CDEFGHé" .big) .double [] [0, 0, 0, 0, 0, 0, 240, 63]) := by decide
  exact ⟨_, h, (decode_encodeFor _ _ _ _ _ _ _ h).1⟩

end ArrayBridge.TypedBlob
