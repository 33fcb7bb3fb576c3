import ArrayBridge.Proofs.Bytes
import ArrayBridge.Platform

/-!
Numbers in either byte order, given by their digits, each at its place.
-/
namespace ArrayBridge.ByteOrder

/-- Where digit `k` of a number of `n` bytes stands. -/
def place : ByteOrder → Nat → Nat → Nat
  | .little, _, k => k
  | .big, n, k => n - 1 - k

def other : ByteOrder → ByteOrder
  | .little => .big
  | .big => .little

theorem place_lt (order : ByteOrder) {n k : Nat} (h : k < n) : order.place n k < n := by
  cases order with
  | little => exact h
  | big => rw [place]; omega

/-- The other order has the digits at the same places, from the other end. -/
theorem other_place (order : ByteOrder) {n k : Nat} (h : k < n) :
    order.other.place n k = order.place n (n - 1 - k) := by
  cases order with
  | little => rfl
  | big => rw [other, place, place]; omega

/-- `v` stands as a signed number of `n` bytes from position `i` of `b` on. -/
structure Stands (order : ByteOrder) (b : Bytes) (i n : Nat) (v : Int) : Prop where
  fits : Bytes.Fits n v
  digits : ∀ k < n, b[i + order.place n k]? = some (Bytes.digit v k)

@[simp] theorem length_arrange (order : ByteOrder) (bs : Bytes) : (order.arrange bs).length = bs.length := by
  cases order with
  | little => rfl
  | big => exact List.length_reverse

@[simp] theorem arrange_arrange (order : ByteOrder) (bs : Bytes) : order.arrange (order.arrange bs) = bs := by
  cases order with
  | little => rfl
  | big => exact List.reverse_reverse bs

theorem getElem?_arrange_slice (order : ByteOrder) {b : Bytes} {i n k : Nat} (h : i + n ≤ b.length)
    (hk : k < n) : (order.arrange (b.slice i n))[k]? = b[i + order.place n k]? := by
  cases order with
  | little => rw [arrange, Bytes.getElem?_slice, if_pos hk, place]
  | big =>
      have hlen := Bytes.length_slice h
      rw [arrange, List.getElem?_reverse (by omega), hlen, Bytes.getElem?_slice, if_pos (by omega), place]

theorem toInt_slice_eq_iff {order : ByteOrder} {b : Bytes} {i n : Nat} {v : Int} (h : i + n ≤ b.length) :
    Bytes.toInt (order.arrange (b.slice i n)) = v ↔ order.Stands b i n v := by
  have hlen : (order.arrange (b.slice i n)).length = n := by
    rw [length_arrange, Bytes.length_slice h]
  rw [Bytes.toInt_eq_iff, hlen]
  constructor
  · rintro ⟨hfits, hdigits⟩
    exact ⟨hfits, fun k hk => by rw [← getElem?_arrange_slice order h hk, hdigits k hk]⟩
  · rintro ⟨hfits, hdigits⟩
    exact ⟨hfits, fun k hk => by rw [getElem?_arrange_slice order h hk, hdigits k hk]⟩

theorem exists_stands (order : ByteOrder) {b : Bytes} {i n : Nat} (h : i + n ≤ b.length) :
    ∃ v, order.Stands b i n v :=
  ⟨_, (toInt_slice_eq_iff h).mp rfl⟩

variable {order : ByteOrder} {b b₂ : Bytes} {i n : Nat} {v w : Int}

/-- A number stands wherever its bytes do. -/
theorem Stands.congr (h : order.Stands b i n v) (hsame : ∀ k, i ≤ k → k < i + n → b₂[k]? = b[k]?) :
    order.Stands b₂ i n v := by
  refine ⟨h.fits, fun k hk => ?_⟩
  have hplace := order.place_lt hk
  rw [hsame _ (Nat.le_add_right i _) (Nat.add_lt_add_left hplace i)]
  exact h.digits k hk

/-- What stands in one order stands in the other as the number with the digits in reverse. -/
theorem Stands.other (h : order.Stands b i n v) (hfits : Bytes.Fits n w)
    (hdigits : ∀ k < n, Bytes.digit w k = Bytes.digit v (n - 1 - k)) : order.other.Stands b i n w := by
  refine ⟨hfits, fun k hk => ?_⟩
  rw [order.other_place hk, hdigits k hk]
  exact h.digits _ (by omega)

theorem Stands.le_length (h : order.Stands b i n v) (hn : 0 < n) : i + n ≤ b.length := by
  have hlast : ∃ k < n, order.place n k = n - 1 := by
    cases order with
    | little => exact ⟨n - 1, by omega, rfl⟩
    | big => exact ⟨0, hn, by rw [place]; omega⟩
  obtain ⟨k, hk, hplace⟩ := hlast
  have hb := h.digits k hk
  rw [hplace] at hb
  obtain ⟨hlt, -⟩ := List.getElem?_eq_some_iff.mp hb
  omega

theorem Stands.toInt_eq (h : order.Stands b i n v) (hn : 0 < n) :
    Bytes.toInt (order.arrange (b.slice i n)) = v :=
  (toInt_slice_eq_iff (h.le_length hn)).mpr h

theorem Stands.slice_eq (h : order.Stands b i n v) (hn : 0 < n) :
    b.slice i n = order.arrange (Bytes.ofInt n v) := by
  have hlen : (order.arrange (b.slice i n)).length = n := by
    rw [length_arrange, Bytes.length_slice (h.le_length hn)]
  have hbytes := Bytes.ofInt_toInt (order.arrange (b.slice i n))
  rw [hlen, h.toInt_eq hn] at hbytes
  rw [hbytes, arrange_arrange]

/-- The bytes of a number in the two orders are the reverse of each other. -/
theorem Stands.slice_reverse (hb : little.Stands b i n v) (hc : big.Stands b₂ i n v) (hn : 0 < n) :
    b.slice i n = (b₂.slice i n).reverse := by
  rw [hb.slice_eq hn, hc.slice_eq hn, arrange, arrange, List.reverse_reverse]

theorem stands_of_slice {v : Nat} (h : b.slice i n = order.arrange (Bytes.ofNat n v))
    (hv : 2 * v < Bytes.range n) (hn : 0 < n) : order.Stands b i n v := by
  have hlen : (b.slice i n).length = n := by
    rw [h, length_arrange, Bytes.length_ofNat]
  have hle : i + n ≤ b.length := by
    rw [Bytes.slice, List.length_take, List.length_drop] at hlen
    omega
  apply (toInt_slice_eq_iff hle).mp
  rw [h, arrange_arrange, Bytes.toInt, Bytes.toNat_ofNat, Bytes.length_ofNat, Nat.mod_eq_of_lt (by omega),
    if_pos hv]

theorem ofFlag?_eq_some_iff {f : UInt8} : ofFlag? f = some order ↔ f = order.flag := by
  unfold ofFlag?
  cases order with
  | little => grind [flag]
  | big => grind [flag]

theorem ofFlag?_eq_none_iff {f : UInt8} : ofFlag? f = none ↔ ∀ order : ByteOrder, f ≠ order.flag := by
  rw [Option.eq_none_iff_forall_ne_some]
  simp only [ne_eq, ofFlag?_eq_some_iff]

end ArrayBridge.ByteOrder
