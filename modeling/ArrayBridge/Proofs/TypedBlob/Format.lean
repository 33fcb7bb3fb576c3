import ArrayBridge.Proofs.ByteOrder
import ArrayBridge.Proofs.Element
import ArrayBridge.Proofs.Platform
import ArrayBridge.TypedBlob.Basic

/-!
The format of a typed blob, position by position, without the functions that write and read it. What a
reader asks of a header comes in the order in which it asks.
-/
namespace ArrayBridge.TypedBlob

structure Tagged (b : Bytes) : Prop where
  long : 36 ≤ b.length
  tag : b.take 13 = magic

structure Flagged (b : Bytes) (order : ByteOrder) : Prop extends Tagged b where
  flag : b[31]? = some order.flag

structure Versioned (b : Bytes) (order : ByteOrder) : Prop extends Flagged b order where
  version : order.Stands b 14 2 36

structure Typed (b : Bytes) (order : ByteOrder) (type : ElementType) : Prop extends Versioned b order where
  id : order.Stands b 16 4 type.id

/-- The table of `n` dimensions lies within the blob. -/
structure Tabled (b : Bytes) (order : ByteOrder) (type : ElementType) (n : Nat) : Prop
    extends Typed b order type where
  count : order.Stands b 32 4 n
  table : 36 + 4 * n ≤ b.length

structure Shaped (b : Bytes) (order : ByteOrder) (type : ElementType) (dims : List Nat) : Prop
    extends Tabled b order type dims.length where
  entries : ∀ (i : Nat) (h : i < dims.length), order.Stands b (36 + 4 * i) 4 (dims[i] : Nat)

/-- A blob as it is kept: the header, and what a reader does not check. -/
structure Layout (origin : Platform) (type : ElementType) (dims : List Nat) (data b : Bytes) : Prop
    extends Shaped b origin.order type dims where
  padding : b[13]? = some 0
  name : b.slice 20 11 = Utf8.encode origin.name.toList ++
    List.replicate (11 - (Utf8.encode origin.name.toList).length) 0
  elements : b.drop (36 + 4 * dims.length) = data

theorem Layout.length_eq {origin : Platform} {type : ElementType} {dims : List Nat} {data b : Bytes}
    (h : Layout origin type dims data b) : b.length = 36 + 4 * dims.length + data.length := by
  have htable := h.table
  rw [← h.elements, List.length_drop]
  omega

/-- A name as long as it may be still has a zero behind it. -/
theorem Layout.name_end {origin : Platform} {type : ElementType} {dims : List Nat} {data b : Bytes}
    (h : Layout origin type dims data b) (hname : (Utf8.encode origin.name.toList).length ≤ 10) :
    b[30]? = some 0 := by
  have hlast := Bytes.getElem?_slice 20 11 10 b
  rw [h.name, if_pos (by decide), List.getElem?_append_right hname,
    List.getElem?_replicate_of_lt (by omega)] at hlast
  exact hlast.symm

theorem Tagged.getElem?_eq {b b₂ : Bytes} (hb : Tagged b) (hc : Tagged b₂) {k : Nat} (hk : k < 13) : b[k]? = b₂[k]? := by
  have h : b.slice 0 13 = b₂.slice 0 13 := by
    rw [Bytes.slice, Bytes.slice, List.drop_zero, List.drop_zero, hb.tag, hc.tag]
  exact Bytes.getElem?_eq_of_slice h (Nat.zero_le k) (by omega)

/-- A header leaves open one byte of padding and the name field, and no other byte before the elements. -/
theorem Shaped.getElem?_eq {b b₂ : Bytes} {order : ByteOrder} {type : ElementType} {dims : List Nat}
    (hb : Shaped b order type dims) (hc : Shaped b₂ order type dims) {k : Nat} (h13 : k ≠ 13)
    (hname : k < 20 ∨ 31 ≤ k) (hk : k < 36 + 4 * dims.length) : b[k]? = b₂[k]? := by
  have hfield : ∀ {i n : Nat} {v : Int}, order.Stands b i n v → order.Stands b₂ i n v → 0 < n → i ≤ k →
      k < i + n → b[k]? = b₂[k]? := fun hsb hsc hn hi hlt =>
    Bytes.getElem?_eq_of_slice ((hsb.slice_eq hn).trans (hsc.slice_eq hn).symm) hi hlt
  by_cases h14 : k < 14
  · exact hb.toTagged.getElem?_eq hc.toTagged (by omega)
  by_cases h16 : k < 16
  · exact hfield hb.version hc.version (by decide) (by omega) h16
  by_cases h20 : k < 20
  · exact hfield hb.id hc.id (by decide) (by omega) h20
  by_cases h32 : k < 32
  · obtain rfl : k = 31 := by omega
    rw [hb.flag, hc.flag]
  by_cases h36 : k < 36
  · exact hfield hb.count hc.count (by decide) (by omega) h36
  · have hi : (k - 36) / 4 < dims.length := by omega
    exact hfield (hb.entries _ hi) (hc.entries _ hi) (by decide) (by omega) (by omega)

theorem Shaped.dim_le {b : Bytes} {order : ByteOrder} {type : ElementType} {dims : List Nat}
    (h : Shaped b order type dims) {d : Nat} (hd : d ∈ dims) : d ≤ 0x7FFFFFFF := by
  obtain ⟨i, hi, rfl⟩ := List.getElem_of_mem hd
  have hhigh : 2 * (dims[i] : Int) < 0x100000000 := (h.entries i hi).fits.high
  omega

/-! Each of these is about the leading bytes alone. -/

theorem Tagged.congr {b b₂ : Bytes} (h : Tagged b) (hlong : 36 ≤ b₂.length) (hsame : ∀ k < 13, b₂[k]? = b[k]?) :
    Tagged b₂ := by
  refine ⟨hlong, h.tag ▸ List.ext_getElem? fun k => ?_⟩
  rw [List.getElem?_take, List.getElem?_take]
  split
  case isTrue hk => exact hsame k hk
  case isFalse => rfl

theorem Typed.congr {b b₂ : Bytes} {order : ByteOrder} {type : ElementType} (h : Typed b order type)
    (hlong : 36 ≤ b₂.length) (hsame : ∀ k < 36, b₂[k]? = b[k]?) : Typed b₂ order type where
  toTagged := h.toTagged.congr hlong fun k hk => hsame k (by omega)
  flag := (hsame 31 (by decide)).trans h.flag
  version := h.version.congr fun k _ hk => hsame k (by omega)
  id := h.id.congr fun k _ hk => hsame k (by omega)

theorem Shaped.congr {b b₂ : Bytes} {order : ByteOrder} {type : ElementType} {dims : List Nat}
    (h : Shaped b order type dims) (htable : 36 + 4 * dims.length ≤ b₂.length)
    (hsame : ∀ k < 36 + 4 * dims.length, b₂[k]? = b[k]?) : Shaped b₂ order type dims where
  toTyped := h.toTyped.congr (by omega) fun k hk => hsame k (by omega)
  count := h.count.congr fun k _ hk => hsame k (by omega)
  table := htable
  entries := fun i hi => (h.entries i hi).congr fun k _ hk => hsame k (by omega)

/-- Bytes that hold no number of the header and are not its flag do not depend on the byte order. -/
theorem Layout.getElem?_outside {o p : Platform} {type : ElementType} {dims : List Nat} {data b b₂ : Bytes}
    (hb : Layout o type dims data b) (hc : Layout p type dims data b₂) (hname : o.name = p.name) {k : Nat}
    (hk : k < 14 ∨ 20 ≤ k ∧ k < 31 ∨ 36 + 4 * dims.length ≤ k) : b[k]? = b₂[k]? := by
  rcases hk with hk | ⟨hlow, hhigh⟩ | hk
  · by_cases h13 : k = 13
    · rw [h13, hb.padding, hc.padding]
    · exact hb.toTagged.getElem?_eq hc.toTagged (by omega)
  · have hfield : b.slice 20 11 = b₂.slice 20 11 := by rw [hb.name, hc.name, hname]
    exact Bytes.getElem?_eq_of_slice hfield hlow hhigh
  · exact Bytes.getElem?_eq_of_drop (hb.elements.trans hc.elements.symm) hk

/-- The layout leaves no byte open. -/
theorem Layout.unique {origin : Platform} {type : ElementType} {dims : List Nat} {data b b₂ : Bytes}
    (hb : Layout origin type dims data b) (hc : Layout origin type dims data b₂) : b = b₂ := by
  apply List.ext_getElem?
  intro k
  by_cases hk : k < 14 ∨ 20 ≤ k ∧ k < 31 ∨ 36 + 4 * dims.length ≤ k
  · exact hb.getElem?_outside hc rfl hk
  · exact hb.toShaped.getElem?_eq hc.toShaped (by omega) (by omega) (by omega)

end ArrayBridge.TypedBlob
