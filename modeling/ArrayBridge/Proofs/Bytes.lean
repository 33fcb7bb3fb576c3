import ArrayBridge.Bytes
import Mathlib.Data.List.TakeWhile

/-!
Parts of byte strings, and numbers of a fixed width as bytes: what is written reads back, and each byte is
a digit to base 256.
-/
namespace ArrayBridge.Bytes

theorem zero_notMem_untilNul (bs : Bytes) : 0 ∉ bs.untilNul := by
  intro h
  simpa using List.mem_takeWhile_imp h

theorem untilNul_eq_self {bs : Bytes} (h : 0 ∉ bs) : bs.untilNul = bs :=
  List.takeWhile_eq_self_iff.mpr fun _ hb => decide_eq_true (ne_of_mem_of_not_mem hb h)

@[simp] theorem untilNul_untilNul (bs : Bytes) : bs.untilNul.untilNul = bs.untilNul :=
  untilNul_eq_self (zero_notMem_untilNul bs)

theorem untilNul_append_zeros (bs : Bytes) (n : Nat) :
    untilNul (bs ++ List.replicate n 0) = untilNul bs := by
  induction bs with
  | nil => cases n <;> simp [untilNul, List.replicate_succ]
  | cons b r ih =>
      simp only [untilNul, List.cons_append, List.takeWhile_cons] at ih ⊢
      rw [ih]

theorem getElem?_slice (i n k : Nat) (b : Bytes) :
    (b.slice i n)[k]? = if k < n then b[i + k]? else none := by
  rw [slice, List.getElem?_take, List.getElem?_drop]

theorem length_slice {i n : Nat} {b : Bytes} (h : i + n ≤ b.length) : (b.slice i n).length = n := by
  rw [slice, List.length_take, List.length_drop]
  omega

theorem slice_append {i n : Nat} {a m : Bytes} (rest : Bytes) (hi : a.length = i) (hn : m.length = n) :
    slice i n (a ++ (m ++ rest)) = m := by
  rw [slice, List.drop_left' hi, List.take_left' hn]

/-- Part `k` of a string that is put together from parts. -/
theorem slice_flatten {ps : List Bytes} {p : Bytes} {k i n : Nat} (h : ps[k]? = some p)
    (hi : (ps.take k).flatten.length = i) (hn : p.length = n) : slice i n ps.flatten = p := by
  obtain ⟨hk, rfl⟩ := List.getElem?_eq_some_iff.mp h
  have hps : ps.flatten = (ps.take k).flatten ++ (ps[k] ++ (ps.drop (k + 1)).flatten) := by
    rw [← List.flatten_cons, List.getElem_cons_drop, ← List.flatten_append, List.take_append_drop]
  rw [hps]
  exact slice_append _ hi hn

theorem slice_slice {i j m n : Nat} (b : Bytes) (h : j + m ≤ n) :
    slice j m (slice i n b) = slice (i + j) m b := by
  rw [slice, slice, slice, List.drop_take, List.drop_drop, List.take_take, Nat.min_eq_left (by omega)]

theorem slice_drop (i j n : Nat) (b : Bytes) : slice i n (b.drop j) = slice (j + i) n b := by
  rw [slice, slice, List.drop_drop]

theorem getElem?_of_slice {i : Nat} {b : Bytes} {x : UInt8} (h : b.slice i 1 = [x]) : b[i]? = some x := by
  have hx := getElem?_slice i 1 0 b
  rw [h, if_pos (by decide), Nat.add_zero] at hx
  exact hx.symm

theorem getElem?_eq_of_slice {i n k : Nat} {b d : Bytes} (h : b.slice i n = d.slice i n) (hi : i ≤ k)
    (hk : k < i + n) : b[k]? = d[k]? := by
  have hb := getElem?_slice i n (k - i) b
  have hd := getElem?_slice i n (k - i) d
  rw [if_pos (by omega), Nat.add_sub_cancel' hi] at hb hd
  rw [← hb, ← hd, h]

theorem getElem?_eq_of_drop {m k : Nat} {b d : Bytes} (h : b.drop m = d.drop m) (hk : m ≤ k) : b[k]? = d[k]? := by
  have hrest := congrArg (·[k - m]?) h
  simpa only [List.getElem?_drop, Nat.add_sub_cancel' hk] using hrest

@[simp] theorem length_groups (n k : Nat) (b : Bytes) : (groups n k b).length = k := by
  induction k generalizing b with
  | zero => rfl
  | succ k ih => rw [groups, List.length_cons, ih]

@[simp] theorem length_chunks (n : Nat) (b : Bytes) : (chunks n b).length = b.length / n := length_groups _ _ _

section Groups

variable {n : Nat} {b : Bytes}

/-- Each group is the part of the bytes that its number tells. -/
theorem getElem?_groups {m k : Nat} (b : Bytes) (h : k < m) : (groups n m b)[k]? = some (b.slice (k * n) n) := by
  induction m generalizing b k with
  | zero => exact absurd h (Nat.not_lt_zero k)
  | succ m ih =>
      rw [groups]
      cases k with
      | zero => rw [List.getElem?_cons_zero, Nat.zero_mul, slice, List.drop_zero]
      | succ k =>
          rw [List.getElem?_cons_succ, ih _ (Nat.lt_of_succ_lt_succ h), slice_drop, Nat.succ_mul, Nat.add_comm]

theorem getElem?_chunks {k : Nat} (h : k < b.length / n) : (b.chunks n)[k]? = some (b.slice (k * n) n) :=
  getElem?_groups b h

theorem exists_slice_of_mem_chunks {c : Bytes} (h : c ∈ b.chunks n) :
    ∃ k, (k + 1) * n ≤ b.length ∧ c = b.slice (k * n) n := by
  obtain ⟨k, hk⟩ := List.mem_iff_getElem?.mp h
  have hlt : k < b.length / n := by
    obtain ⟨hlt, -⟩ := List.getElem?_eq_some_iff.mp hk
    rwa [length_chunks] at hlt
  refine ⟨k, Nat.mul_le_of_le_div n _ _ hlt, ?_⟩
  exact Option.some.inj (hk.symm.trans (getElem?_chunks hlt))

theorem mem_of_mem_slice {i : Nat} {x : UInt8} (h : x ∈ b.slice i n) : x ∈ b :=
  List.mem_of_mem_drop (List.mem_of_mem_take h)

theorem groups_flatten {ps : List Bytes} (h : ∀ p ∈ ps, p.length = n) : groups n ps.length ps.flatten = ps := by
  induction ps with
  | nil => rfl
  | cons p ps ih =>
      have hp := h p List.mem_cons_self
      rw [List.length_cons, List.flatten_cons, groups, List.take_left' hp, List.drop_left' hp,
        ih fun q hq => h q (List.mem_cons_of_mem p hq)]

theorem flatten_groups {m : Nat} (h : b.length = m * n) : (groups n m b).flatten = b := by
  induction m generalizing b with
  | zero =>
      rw [Nat.zero_mul] at h
      exact (List.length_eq_zero_iff.mp h).symm
  | succ m ih =>
      have hrest : (b.drop n).length = m * n := by rw [List.length_drop, h, Nat.succ_mul, Nat.add_sub_cancel]
      rw [groups, List.flatten_cons, ih hrest, List.take_append_drop]

theorem flatten_chunks (h : n ∣ b.length) : (b.chunks n).flatten = b :=
  flatten_groups (Nat.div_mul_cancel h).symm

end Groups

@[simp] theorem length_ofNat (n v : Nat) : (ofNat n v).length = n := by
  induction n generalizing v with
  | zero => rfl
  | succ n ih => simp only [ofNat, List.length_cons, ih]

theorem range_zero : range 0 = 1 := rfl

theorem range_succ (n : Nat) : range (n + 1) = 256 * range n := Nat.mul_comm _ _

theorem range_pos (n : Nat) : 0 < range n := Nat.pow_pos (by decide)

theorem toNat_lt (bs : Bytes) : toNat bs < range bs.length := by
  induction bs with
  | nil => exact range_pos 0
  | cons b r ih =>
      have hb := b.toNat_lt
      simp only [toNat, List.length_cons, range_succ]
      omega

theorem toNat_ofNat (n v : Nat) : toNat (ofNat n v) = v % range n := by
  induction n generalizing v with
  | zero => exact (Nat.mod_one v).symm
  | succ n ih =>
      rw [ofNat, toNat, ih, range_succ, Nat.mod_mul]
      simp

theorem ofNat_toNat (bs : Bytes) : ofNat bs.length (toNat bs) = bs := by
  induction bs with
  | nil => rfl
  | cons b r ih =>
      have hb := b.toNat_lt
      have hlow : (b.toNat + 256 * toNat r) % 256 = b.toNat := by omega
      have hrest : (b.toNat + 256 * toNat r) / 256 = toNat r := by omega
      simp only [List.length_cons, toNat, ofNat, hlow, hrest, ih, UInt8.ofNat_toNat]

theorem toNat_ofNat_of_lt {n v : Nat} (h : v < range n) : toNat (ofNat n v) = v := by
  rw [toNat_ofNat, Nat.mod_eq_of_lt h]

theorem ofNat_toNat_of_length {n : Nat} {b : Bytes} (h : b.length = n) : ofNat n (toNat b) = b := by
  rw [← h, ofNat_toNat]

theorem toNat_lt_of_length {n : Nat} {b : Bytes} (h : b.length = n) : toNat b < range n := h ▸ toNat_lt b

/-- Digit `k` of a number to base 256. A negative number has infinitely many digits, as in two's
complement. -/
def digit (v : Int) (k : Nat) : UInt8 := UInt8.ofNat (v / range k % 256).toNat

theorem digit_succ (v : Int) (k : Nat) : digit v (k + 1) = digit (v / 256) k := by
  have h : (range (k + 1) : Int) = 256 * range k := by
    rw [range_succ, Int.natCast_mul]
    rfl
  rw [digit, digit, h, Int.ediv_ediv_of_nonneg (by decide)]

theorem ofInt_succ (n : Nat) (v : Int) : ofInt (n + 1) v = digit v 0 :: ofInt n (v / 256) := by
  have hr := range_pos n
  have hq := Int.emod_add_mul_ediv (v / 256) (range n)
  have hnonneg := Int.emod_nonneg (v / 256) (by omega : (range n : Int) ≠ 0)
  have hlt := Int.emod_lt_of_pos (v / 256) (by omega : 0 < (range n : Int))
  -- The low digit and the rest of `v`, each within its own range, are the remainder.
  have hmod : v % (range (n + 1) : Int) = v % 256 + 256 * ((v / 256) % range n) := by
    rw [range_succ, Int.natCast_mul]
    have hv : v = v % 256 + 256 * ((v / 256) % range n) + 256 * range n * (v / 256 / range n) := by
      rw [Int.mul_assoc]
      omega
    conv => lhs; rw [hv]
    rw [show ((256 : Nat) : Int) = 256 from rfl, Int.add_mul_emod_self_left]
    exact Int.emod_eq_of_lt (by omega) (by omega)
  have hnat : (v % (range (n + 1) : Int)).toNat = (v % 256).toNat + 256 * ((v / 256) % range n).toNat := by
    rw [hmod]; omega
  have hlow : ((v % 256).toNat + 256 * ((v / 256) % range n).toNat) % 256 = (v % 256).toNat := by omega
  have hrest : ((v % 256).toNat + 256 * ((v / 256) % range n).toNat) / 256 = ((v / 256) % range n).toNat := by
    omega
  simp only [ofInt, ofNat, hnat, hlow, hrest, digit, range_zero, Int.natCast_one, Int.ediv_one]

@[simp] theorem length_ofInt (n : Nat) (v : Int) : (ofInt n v).length = n := length_ofNat _ _

theorem ofInt_getElem? {n k : Nat} (v : Int) (h : k < n) : (ofInt n v)[k]? = some (digit v k) := by
  induction n generalizing v k with
  | zero => exact absurd h (Nat.not_lt_zero k)
  | succ n ih =>
      rw [ofInt_succ]
      cases k with
      | zero => rfl
      | succ k =>
          rw [List.getElem?_cons_succ, ih _ (Nat.lt_of_succ_lt_succ h), digit_succ]

/-- The numbers that `n` bytes can hold in two's complement. -/
structure Fits (n : Nat) (v : Int) : Prop where
  low : -(range n : Int) ≤ 2 * v
  high : 2 * v < range n

theorem toInt_fits (bs : Bytes) : Fits bs.length (toInt bs) := by
  have h := toNat_lt bs
  unfold toInt
  split <;> constructor <;> omega

theorem toInt_ofInt {n : Nat} {v : Int} (h : Fits n v) : toInt (ofInt n v) = v := by
  have hr := range_pos n
  have hlow := h.low
  have hhigh := h.high
  have hnonneg := Int.emod_nonneg v (by omega : (range n : Int) ≠ 0)
  have hlt := Int.emod_lt_of_pos v (by omega : 0 < (range n : Int))
  have hnat : toNat (ofInt n v) = (v % range n).toNat := by
    rw [ofInt, toNat_ofNat]
    exact Nat.mod_eq_of_lt (by omega)
  rw [toInt, length_ofInt, hnat]
  by_cases hv : 0 ≤ v
  · have hm : v % range n = v := Int.emod_eq_of_lt hv (by omega)
    rw [hm, if_pos (by omega)]
    omega
  · have hm : v % range n = v + range n := by
      rw [← Int.add_emod_right]
      exact Int.emod_eq_of_lt (by omega) (by omega)
    rw [hm, if_neg (by omega)]
    omega

theorem ofInt_toInt (bs : Bytes) : ofInt bs.length (toInt bs) = bs := by
  have h := toNat_lt bs
  have hm : (toInt bs % range bs.length).toNat = toNat bs := by
    unfold toInt
    split
    · rw [Int.emod_eq_of_lt (by omega) (by omega)]
      omega
    · rw [Int.sub_emod_right, Int.emod_eq_of_lt (by omega) (by omega)]
      omega
  rw [ofInt, hm, ofNat_toNat]

theorem ofInt_toInt_of_length {n : Nat} {b : Bytes} (h : b.length = n) : ofInt n (toInt b) = b := by
  rw [← h, ofInt_toInt]

/-- Half of the range lies on either side of zero. -/
theorem fits_iff {n half : Nat} {v : Int} (h : range n = 2 * half) : Fits n v ↔ -(half : Int) ≤ v ∧ v < half := by
  constructor
  · rintro ⟨hlow, hhigh⟩
    omega
  · rintro ⟨hlow, hhigh⟩
    exact ⟨by omega, by omega⟩

theorem toInt_bounds {n half : Nat} {b : Bytes} (hlen : b.length = n) (h : range n = 2 * half) :
    -(half : Int) ≤ toInt b ∧ toInt b < half := (fits_iff h).mp (hlen ▸ toInt_fits b)

/-- Bytes hold a number exactly when each of them is the digit of its place. -/
theorem toInt_eq_iff {bs : Bytes} {v : Int} :
    toInt bs = v ↔ Fits bs.length v ∧ ∀ k < bs.length, bs[k]? = some (digit v k) := by
  constructor
  · rintro rfl
    refine ⟨toInt_fits bs, fun k hk => ?_⟩
    have h := ofInt_getElem? (toInt bs) hk
    rwa [ofInt_toInt] at h
  · rintro ⟨hfits, hdigits⟩
    have h : bs = ofInt bs.length v := by
      apply List.ext_getElem?
      intro k
      by_cases hk : k < bs.length
      · rw [hdigits k hk, ofInt_getElem? v hk]
      · rw [List.getElem?_eq_none (by omega), List.getElem?_eq_none (by rw [length_ofInt]; omega)]
    rw [h, toInt_ofInt hfits]

end ArrayBridge.Bytes
