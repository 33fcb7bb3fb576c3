import ArrayBridge.Proofs.TypedBlob.RoundTrip
import ArrayBridge.Proofs.Utf8.Border

/-!
What a blob keeps of a long platform name. The cut goes back byte by byte from the end of the room to a border between
characters. It comes to one after at most three steps, and no longer part of the name would fit; a blob then holds
the name that was kept in full, with a zero behind it.
-/
namespace ArrayBridge

/-- The longest front part of a text, in whole characters, that takes at most `room` bytes. -/
structure LongestFront (room : Nat) (cs kept : List Char) : Prop where
  front : kept <+: cs
  fits : (Utf8.encode kept).length ≤ room
  longest : ∀ ds, ds <+: cs → (Utf8.encode ds).length ≤ room → ds <+: kept

namespace LongestFront

variable {room : Nat} {cs kept : List Char}

theorem encode_eq_take (h : LongestFront room cs kept) :
    Utf8.encode kept = (Utf8.encode cs).take (Utf8.encode kept).length :=
  List.prefix_iff_eq_take.mp (Utf8.encode_isPrefix h.front)

theorem border (h : LongestFront room cs kept) : Utf8.Border (Utf8.encode cs) (Utf8.encode kept).length :=
  Utf8.border_encode_iff.mpr ⟨kept, h.front, rfl⟩

theorem le_of_border (h : LongestFront room cs kept) {m : Nat} (hroom : m ≤ room)
    (hborder : Utf8.Border (Utf8.encode cs) m) : m ≤ (Utf8.encode kept).length := by
  obtain ⟨ds, hds, rfl⟩ := Utf8.border_encode_iff.mp hborder
  exact (Utf8.encode_isPrefix (h.longest ds hds hroom)).length_le

theorem backFrom_eq (h : LongestFront room cs kept) :
    Utf8.backFrom (Utf8.encode cs) (min (Utf8.encode cs).length room) = some (Utf8.encode kept).length := by
  have hwithin := (Utf8.encode_isPrefix h.front).length_le
  refine Utf8.backFrom_eq_some_iff.mpr ⟨Nat.le_min.mpr ⟨hwithin, h.fits⟩, h.border, ?_⟩
  intro m hm hborder
  exact h.le_of_border (Nat.le_min.mp hm).2 hborder

/-- Less than a character is lost of the room, and a character takes at most four bytes. -/
theorem min_le_length (h : LongestFront room cs kept) :
    min (Utf8.encode cs).length room ≤ (Utf8.encode kept).length + 3 := by
  obtain ⟨rest, rfl⟩ := h.front
  cases rest with
  | nil =>
      rw [List.append_nil]
      omega
  | cons c rest =>
      by_contra hfar
      have hsize := c.utf8Size_le_four
      have hlen : (Utf8.encode (kept ++ [c])).length = (Utf8.encode kept).length + c.utf8Size := by
        rw [Utf8.encode_append, List.length_append, Utf8.length_encode [c]]
        rfl
      have hnext : kept ++ [c] <+: kept ++ c :: rest := (List.prefix_append_right_inj kept).mpr ⟨rest, rfl⟩
      have hlonger := (h.longest _ hnext (by omega)).length_le
      rw [List.length_append, List.length_singleton] at hlonger
      omega

end LongestFront

namespace Platform

theorem isPrefix_fit {room : Nat} {cs ds : List Char} (h : ds <+: cs) (hroom : (Utf8.encode ds).length ≤ room) :
    ds <+: fit room cs := by
  induction cs generalizing room ds with
  | nil => exact h
  | cons c cs ih =>
      cases ds with
      | nil => exact List.nil_prefix
      | cons d ds =>
          obtain ⟨rfl, hrest⟩ := List.cons_prefix_cons.mp h
          rw [Utf8.encode_cons, List.length_append, String.length_utf8EncodeChar] at hroom
          rw [fit, if_pos (by omega)]
          exact (List.prefix_cons_inj d).mpr (ih hrest (by omega))

theorem longestFront_named (name : String) (order : ByteOrder) :
    LongestFront nameLimit name.toList (named name order).name.toList := by
  rw [named, String.toList_ofList]
  exact {
    front := fit_isPrefix nameLimit name.toList
    fits := length_encode_fit nameLimit name.toList
    longest := fun _ h hroom => isPrefix_fit h hroom }

/-- The cut as it goes by bytes, from the last position at which a name may end. A step back from the front would be a
fault, `none`, and so would a cut within a character. -/
def cut? (name : String) : Option String := do
  let bytes := Utf8.encode name.toList
  let n ← Utf8.backFrom bytes (min bytes.length nameLimit)
  let kept ← Utf8.decode? (bytes.take n)
  return String.ofList kept

theorem cut?_eq (name : String) (order : ByteOrder) : cut? name = some (named name order).name := by
  have hlongest := longestFront_named name order
  have hkept := Utf8.decode?_eq_some_iff.mpr hlongest.encode_eq_take
  simp only [cut?, hlongest.backFrom_eq, hkept, Option.bind_eq_bind, Option.bind_some, Option.pure_def,
    String.ofList_toList]

/-- The name field ends in what the name leaves of its eleven bytes, and that is at least one. -/
theorem slice_of_encodeFor {name : String} {order : ByteOrder} {type : ElementType} {dims : List Nat} {data b : Bytes}
    {max : Nat} (h : TypedBlob.encodeFor (named name order) type dims data max = .ok b) :
    ∃ k, b.slice 20 11 = Utf8.encode (named name order).name.toList ++ List.replicate (k + 1) 0 := by
  obtain ⟨-, hlayout⟩ := TypedBlob.layout_of_encodeFor h
  obtain ⟨k, hk⟩ := Nat.exists_eq_add_of_le (length_encode_name name order)
  have hzeros : 11 - (Utf8.encode (named name order).name.toList).length = k + 1 := by
    rw [nameLimit] at hk
    omega
  exact ⟨k, hzeros ▸ hlayout.name⟩

/-- Going back from the end of the room comes to a border without leaving the name, in three steps or fewer, and it is
the last one in the room. The name up to there is what is kept: the longest front part that fits, which is kept again
as it is. A blob holds it in full and has a zero behind it. -/
theorem named_exact (name : String) (order : ByteOrder) :
    (∃ n, Utf8.backFrom (Utf8.encode name.toList) (min (Utf8.encode name.toList).length 10) = some n ∧
        min (Utf8.encode name.toList).length 10 ≤ n + 3 ∧ n ≤ 10 ∧ Utf8.Border (Utf8.encode name.toList) n ∧
        (∀ m ≤ 10, Utf8.Border (Utf8.encode name.toList) m → m ≤ n) ∧
        Utf8.encode (named name order).name.toList = (Utf8.encode name.toList).take n) ∧
      cut? name = some (named name order).name ∧
      LongestFront 10 name.toList (named name order).name.toList ∧
      cut? (named name order).name = some (named name order).name ∧
      (∀ other, named (named name order).name other = ⟨(named name order).name, other⟩) ∧
      ∀ type dims data max b, TypedBlob.encodeFor (named name order) type dims data max = .ok b →
        ∃ k, b.slice 20 11 = Utf8.encode (named name order).name.toList ++ List.replicate (k + 1) 0 := by
  have hlongest : LongestFront 10 name.toList (named name order).name.toList := longestFront_named name order
  have hagain : ∀ other, named (named name order).name other = ⟨(named name order).name, other⟩ := fun other =>
    named_eq other (length_encode_name name order)
  refine ⟨⟨_, hlongest.backFrom_eq, hlongest.min_le_length, hlongest.fits, hlongest.border, ?_,
    hlongest.encode_eq_take⟩, cut?_eq name order, hlongest, ?_, hagain, ?_⟩
  · intro m hm hborder
    exact hlongest.le_of_border hm hborder
  · rw [cut?_eq _ order, hagain]
  · intro type dims data max b h
    exact slice_of_encodeFor h

/-- The tenth byte of this name is within a character of three, which leaves eight. -/
theorem named_exact_straddling :
    Utf8.backFrom (Utf8.encode "freebsd-€64".toList) 10 = some 8 ∧ (named "freebsd-€64" .big).name = "freebsd-" ∧
      ∃ b k, TypedBlob.encodeFor (named "freebsd-€64" .big) .uint8 [] [7] 37 = .ok b ∧
        b.slice 20 11 = Utf8.encode "freebsd-".toList ++ List.replicate (k + 1) 0 := by
  have h : TypedBlob.encodeFor (named "freebsd-€64" .big) .uint8 [] [7] 37 =
      .ok (TypedBlob.layout (named "freebsd-€64" .big) .uint8 [] [7]) := by decide
  obtain ⟨-, -, -, -, -, hblob⟩ := named_exact "freebsd-€64" .big
  obtain ⟨k, hk⟩ := hblob _ _ _ _ _ h
  exact ⟨by decide, by decide, _, k, h, hk⟩

end Platform

end ArrayBridge
