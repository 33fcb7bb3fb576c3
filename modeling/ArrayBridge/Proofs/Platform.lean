import ArrayBridge.Proofs.Utf8
import ArrayBridge.Platform

/-!
Platform names: what is kept of a name fits into its header field and is kept again.
-/
namespace ArrayBridge.Platform

theorem length_encode_fit (room : Nat) (cs : List Char) : (Utf8.encode (fit room cs)).length ≤ room := by
  induction cs generalizing room with
  | nil => exact Nat.zero_le room
  | cons c cs ih =>
      unfold fit
      split
      · have h := ih (room - c.utf8Size)
        simp only [Utf8.encode_cons, List.length_append, String.length_utf8EncodeChar]
        omega
      · exact Nat.zero_le room

theorem fit_eq_self {room : Nat} {cs : List Char} (h : (Utf8.encode cs).length ≤ room) : fit room cs = cs := by
  induction cs generalizing room with
  | nil => rfl
  | cons c cs ih =>
      simp only [Utf8.encode_cons, List.length_append, String.length_utf8EncodeChar] at h
      rw [fit, if_pos (by omega), ih (by omega)]

theorem fit_isPrefix (room : Nat) (cs : List Char) : fit room cs <+: cs := by
  induction cs generalizing room with
  | nil => exact List.prefix_rfl
  | cons c cs ih =>
      unfold fit
      split
      · exact (List.prefix_cons_inj c).mpr (ih (room - c.utf8Size))
      · exact List.nil_prefix

theorem length_encode_name (name : String) (order : ByteOrder) :
    (Utf8.encode (named name order).name.toList).length ≤ nameLimit := by
  simpa only [named, String.toList_ofList] using length_encode_fit nameLimit name.toList

theorem named_eq {name : String} (order : ByteOrder) (h : (Utf8.encode name.toList).length ≤ nameLimit) :
    named name order = ⟨name, order⟩ := by
  rw [named, fit_eq_self h, String.ofList_toList]

theorem name_named_eq_iff {name : String} (order : ByteOrder) :
    (named name order).name = name ↔ (Utf8.encode name.toList).length ≤ nameLimit := by
  constructor
  · intro h
    have hlen := length_encode_name name order
    rwa [h] at hlen
  · intro h
    rw [named_eq order h]

theorem named_name (name : String) (order : ByteOrder) :
    named (named name order).name order = named name order :=
  named_eq order (length_encode_name name order)

/-- What a NUL-terminated reader sees of a name. -/
def visible (name : String) : String := String.ofList (name.toList.takeWhile (· ≠ '\x00'))

theorem visible_of_takeWhile {name : String} (h : name.toList.takeWhile (· ≠ '\x00') = name.toList) :
    visible name = name := by
  rw [visible, h, String.ofList_toList]

theorem visible_eq_self {name : String} (h : '\x00' ∉ name.toList) : visible name = name :=
  visible_of_takeWhile (List.takeWhile_eq_self_iff.mpr fun _ hc => decide_eq_true (ne_of_mem_of_not_mem hc h))

theorem visible_of_untilNul {name : String}
    (h : Bytes.untilNul (Utf8.encode name.toList) = Utf8.encode name.toList) : visible name = name := by
  apply visible_of_takeWhile
  rw [Utf8.untilNul_encode] at h
  rw [← Utf8.decodeLossy_encode (name.toList.takeWhile _), h, Utf8.decodeLossy_encode]

end ArrayBridge.Platform
