import ArrayBridge.Proofs.Bytes
import ArrayBridge.Utf8
import Mathlib.Algebra.Ring.Nat

/-!
Reading UTF-8 text back: the scan of what was written reports exactly its characters, and bytes in which it
reports nothing else are what is written for them.
-/
namespace ArrayBridge.Utf8

theorem toNat_ofNat_of_lt {n : Nat} (h : n < 256) : (UInt8.ofNat n).toNat = n := by
  rw [UInt8.toNat_ofNat', Nat.mod_eq_of_lt (by omega)]

theorem ofNat_lt_iff {n : Nat} (h : n < 256) (b : UInt8) : UInt8.ofNat n < b ↔ n < b.toNat := by
  rw [UInt8.lt_iff_toNat_lt, toNat_ofNat_of_lt h]

theorem ofNat_eq_iff {n : Nat} (h : n < 256) (b : UInt8) : UInt8.ofNat n = b ↔ n = b.toNat := by
  rw [← UInt8.toNat_inj, toNat_ofNat_of_lt h]

theorem first_ascii {n : Nat} (h : n < 0x80) : first (UInt8.ofNat n) = .char (Char.ofNat n) := by
  have h' : n < 256 := by omega
  simp [first, ofNat_lt_iff h', toNat_ofNat_of_lt h', h]

theorem first_two {n : Nat} (hlow : 0xC2 ≤ n) (hhigh : n < 0xE0) :
    first (UInt8.ofNat n) = .more ⟨n - 0xC0, 1, 0x80, 0xBF⟩ := by
  have h' : n < 256 := by omega
  simp [first, ofNat_lt_iff h', toNat_ofNat_of_lt h', hhigh, show ¬n < 128 by omega, show ¬n < 194 by omega]

theorem first_three {n : Nat} (hlow : 0xE0 ≤ n) (hhigh : n < 0xF0) :
    first (UInt8.ofNat n) =
      .more ⟨n - 0xE0, 2, if n = 0xE0 then 0xA0 else 0x80, if n = 0xED then 0x9F else 0xBF⟩ := by
  have h' : n < 256 := by omega
  simp [first, ofNat_lt_iff h', ofNat_eq_iff h', toNat_ofNat_of_lt h', hhigh, show ¬n < 128 by omega,
    show ¬n < 194 by omega, show ¬n < 224 by omega]

theorem first_four {n : Nat} (hlow : 0xF0 ≤ n) (hhigh : n < 0xF5) :
    first (UInt8.ofNat n) =
      .more ⟨n - 0xF0, 3, if n = 0xF0 then 0x90 else 0x80, if n = 0xF4 then 0x8F else 0xBF⟩ := by
  have h' : n < 256 := by omega
  simp [first, ofNat_lt_iff h', ofNat_eq_iff h', toNat_ofNat_of_lt h', hhigh, show ¬n < 128 by omega,
    show ¬n < 194 by omega, show ¬n < 224 by omega, show ¬n < 240 by omega]

theorem Pending.next_within {p : Pending} {n : Nat} (hlow : p.low.toNat ≤ n) (hhigh : n ≤ p.high.toNat) :
    p.next (UInt8.ofNat n) =
      if p.left = 1 then .char (Char.ofNat (p.bits * 64 + (n - 0x80)))
      else .more ⟨p.bits * 64 + (n - 0x80), p.left - 1, 0x80, 0xBF⟩ := by
  have h' : n < 256 := Nat.lt_of_le_of_lt hhigh p.high.toNat_lt
  simp only [next, UInt8.le_iff_toNat_le, toNat_ofNat_of_lt h', hlow, hhigh, and_self, if_true]

theorem scan_first_more {b : UInt8} {p : Pending} (h : first b = .more p) (r : Bytes) :
    scan none (b :: r) = scan (some p) r := by
  rw [scan, h]

theorem scan_next_more {b : UInt8} {p q : Pending} (h : p.next b = .more q) (r : Bytes) :
    scan (some p) (b :: r) = scan (some q) r := by
  rw [scan, h]

theorem scan_next_char {b : UInt8} {p : Pending} {c : Char} (h : p.next b = .char c) (r : Bytes) :
    scan (some p) (b :: r) = some c :: scan none r := by
  rw [scan, h]

theorem Pending.next_middle (bits left : Nat) {n : Nat} {low high : UInt8} (hlow : low.toNat ≤ n + 0x80)
    (hhigh : n + 0x80 ≤ high.toNat) :
    (⟨bits, left + 2, low, high⟩ : Pending).next (UInt8.ofNat (n + 0x80)) =
      .more ⟨bits * 64 + n, left + 1, 0x80, 0xBF⟩ := by
  rw [next_within hlow hhigh, if_neg (by simp)]
  simp

theorem Pending.next_last {bits : Nat} {c : Char} (h : bits = c.toNat / 64) :
    (⟨bits, 1, 0x80, 0xBF⟩ : Pending).next (UInt8.ofNat (c.toNat % 64 + 0x80)) = .char c := by
  have hbits : bits * 64 + (c.toNat % 64 + 0x80 - 0x80) = c.toNat := by omega
  rw [next_within (by simp) (by simp; omega), if_pos rfl, hbits, Char.ofNat_toNat]

/-- The scan takes the form of a character in one piece. Surrogates and overlong forms are what the ranges
of the second byte exclude, and no character has them. -/
theorem scan_encodeChar (c : Char) (r : Bytes) :
    scan none (String.utf8EncodeChar c ++ r) = some c :: scan none r := by
  have hvalid : c.toNat < 0xD800 ∨ 0xDFFF < c.toNat ∧ c.toNat < 0x110000 := c.valid
  have hval : c.val.toNat = c.toNat := rfl
  unfold String.utf8EncodeChar
  simp only [hval]
  by_cases h1 : c.toNat ≤ 0x7F
  · rw [if_pos h1, List.singleton_append, scan, first_ascii (by omega), Char.ofNat_toNat]
  rw [if_neg h1]
  by_cases h2 : c.toNat ≤ 0x7FF
  · rw [if_pos h2]
    simp only [List.cons_append, List.nil_append]
    rw [scan_first_more (first_two (by omega) (by omega))]
    exact scan_next_char (Pending.next_last (by omega)) r
  rw [if_neg h2]
  by_cases h3 : c.toNat ≤ 0xFFFF
  · rw [if_pos h3]
    simp only [List.cons_append, List.nil_append]
    rw [scan_first_more (first_three (by omega) (by omega)), scan_next_more (Pending.next_middle _ 0 ?_ ?_)]
    · exact scan_next_char (Pending.next_last (by omega)) r
    · split
      · simp; omega
      · simp
    · split <;> (simp; omega)
  · rw [if_neg h3]
    simp only [List.cons_append, List.nil_append]
    rw [scan_first_more (first_four (by omega) (by omega)), scan_next_more (Pending.next_middle _ 1 ?_ ?_),
      scan_next_more (Pending.next_middle _ 0 (by simp) (by simp; omega))]
    · exact scan_next_char (Pending.next_last (by omega)) r
    · split
      · simp; omega
      · simp
    · split <;> (simp; omega)

@[simp] theorem encode_cons (c : Char) (cs : List Char) :
    encode (c :: cs) = String.utf8EncodeChar c ++ encode cs := rfl

theorem scan_encode (cs : List Char) : scan none (encode cs) = cs.map some := by
  induction cs with
  | nil => rfl
  | cons c cs ih => rw [encode_cons, scan_encodeChar, ih, List.map_cons]

theorem decodeLossy_encode (cs : List Char) : decodeLossy (encode cs) = cs := by
  rw [decodeLossy, scan_encode, List.map_map]
  exact List.map_id cs

/-- The bytes of a text once each ill-formed part of it is replaced, by a character of three bytes. -/
def replacedSize (bs : Bytes) : Nat := ((scan none bs).map fun o => (o.map Char.utf8Size).getD 3).sum

theorem length_encode (cs : List Char) : (encode cs).length = (cs.map Char.utf8Size).sum := by
  induction cs with
  | nil => rfl
  | cons c cs ih =>
      rw [encode_cons, List.length_append, String.length_utf8EncodeChar, ih, List.map_cons, List.sum_cons]

theorem length_encode_decodeLossy (bs : Bytes) : (encode (decodeLossy bs)).length = replacedSize bs := by
  rw [length_encode, decodeLossy, replacedSize, List.map_map]
  refine congrArg List.sum (List.map_congr_left fun o _ => ?_)
  cases o with
  | none => rfl
  | some c => rfl

theorem zero_notMem_encodeChar {c : Char} (h : c ≠ '\x00') : 0 ∉ String.utf8EncodeChar c := by
  have hpos : c.toNat ≠ 0 := fun he => h (by rw [← Char.ofNat_toNat c, he])
  have hval : c.val.toNat = c.toNat := rfl
  have hne : ∀ n, n < 256 → n ≠ 0 → (0 : UInt8) ≠ UInt8.ofNat n := fun n hn h0 he =>
    h0 ((ofNat_eq_iff hn 0).mp he.symm)
  unfold String.utf8EncodeChar
  simp only [hval]
  split
  · simp only [List.mem_singleton]
    exact hne _ (by omega) hpos
  · split
    · simp only [List.mem_cons, List.not_mem_nil, or_false, not_or]
      exact ⟨hne _ (by omega) (by omega), hne _ (by omega) (by omega)⟩
    · split
      · simp only [List.mem_cons, List.not_mem_nil, or_false, not_or]
        exact ⟨hne _ (by omega) (by omega), hne _ (by omega) (by omega), hne _ (by omega) (by omega)⟩
      · simp only [List.mem_cons, List.not_mem_nil, or_false, not_or]
        exact ⟨hne _ (by omega) (by omega), hne _ (by omega) (by omega), hne _ (by omega) (by omega),
          hne _ (by omega) (by omega)⟩

theorem untilNul_encode (cs : List Char) :
    Bytes.untilNul (encode cs) = encode (cs.takeWhile (· ≠ '\x00')) := by
  induction cs with
  | nil => rfl
  | cons c cs ih =>
      by_cases h : c = '\x00'
      · subst h
        rfl
      · have hfull : ∀ b ∈ String.utf8EncodeChar c, decide (b ≠ 0) = true := fun b hb =>
          decide_eq_true fun he => zero_notMem_encodeChar h (he ▸ hb)
        have hfirst : (c :: cs).takeWhile (· ≠ '\x00') = c :: cs.takeWhile (· ≠ '\x00') :=
          List.takeWhile_cons_of_pos (decide_eq_true h)
        rw [encode_cons, Bytes.untilNul, List.takeWhile_append_of_pos hfull, ← Bytes.untilNul, ih, hfirst,
          encode_cons]


/-! The converse: bytes that the scan reports as characters are the forms of these characters. -/

/-- The last `n` bytes of the form of code point `v`. -/
def tail : Nat → Nat → Bytes
  | 0, _ => []
  | n + 1, v => UInt8.ofNat (v / 64 ^ n % 64 + 0x80) :: tail n v

/-- The code points that are characters. -/
def Scalar (v : Nat) : Prop := v < 0xD800 ∨ 0xDFFF < v ∧ v < 0x110000

theorem toNat_ofNat {v : Nat} (h : Scalar v) : (Char.ofNat v).val.toNat = v := by
  have hvalid : v.isValidChar := h
  rw [Char.ofNat, dif_pos hvalid]
  rfl

theorem encodeChar_ofNat {v : Nat} (h : Scalar v) :
    String.utf8EncodeChar (Char.ofNat v) =
      if v ≤ 0x7F then [UInt8.ofNat v]
      else if v ≤ 0x7FF then UInt8.ofNat (v / 64 % 32 + 0xC0) :: tail 1 v
      else if v ≤ 0xFFFF then UInt8.ofNat (v / 4096 % 16 + 0xE0) :: tail 2 v
      else UInt8.ofNat (v / 262144 % 8 + 0xF0) :: tail 3 v := by
  unfold String.utf8EncodeChar
  simp only [toNat_ofNat h, tail, Nat.reducePow, Nat.div_one]

theorem encodeChar_eq (c : Char) :
    String.utf8EncodeChar c =
      if c.toNat ≤ 0x7F then [UInt8.ofNat c.toNat]
      else if c.toNat ≤ 0x7FF then UInt8.ofNat (c.toNat / 64 % 32 + 0xC0) :: tail 1 c.toNat
      else if c.toNat ≤ 0xFFFF then UInt8.ofNat (c.toNat / 4096 % 16 + 0xE0) :: tail 2 c.toNat
      else UInt8.ofNat (c.toNat / 262144 % 8 + 0xF0) :: tail 3 c.toNat := by
  have hscalar : Scalar c.toNat := c.valid
  rw [← encodeChar_ofNat hscalar, Char.ofNat_toNat]

theorem first_eq_char {b : UInt8} {c : Char} (h : first b = .char c) :
    b.toNat ≤ 0x7F ∧ c = Char.ofNat b.toNat := by
  unfold first at h
  simp only [UInt8.lt_iff_toNat_lt] at h
  grind

/-- The bytes after which a character is begun, by the number of bytes to come. -/
theorem first_eq_more {b : UInt8} {p : Pending} (h : first b = .more p) :
    (0xC2 ≤ b.toNat ∧ b.toNat < 0xE0 ∧ p = ⟨b.toNat - 0xC0, 1, 0x80, 0xBF⟩) ∨
      (0xE0 ≤ b.toNat ∧ b.toNat < 0xF0 ∧
        p = ⟨b.toNat - 0xE0, 2, if b = 0xE0 then 0xA0 else 0x80, if b = 0xED then 0x9F else 0xBF⟩) ∨
      (0xF0 ≤ b.toNat ∧ b.toNat < 0xF5 ∧
        p = ⟨b.toNat - 0xF0, 3, if b = 0xF0 then 0x90 else 0x80, if b = 0xF4 then 0x8F else 0xBF⟩) := by
  unfold first at h
  simp only [UInt8.lt_iff_toNat_lt] at h
  grind

theorem first_more_bounds {b : UInt8} {p : Pending} (h : first b = .more p) :
    0 < p.left ∧ 0x80 ≤ p.low.toNat ∧ p.high.toNat ≤ 0xBF := by
  rcases first_eq_more h with ⟨-, -, rfl⟩ | ⟨-, -, rfl⟩ | ⟨-, -, rfl⟩
  · simp
  · dsimp only
    split <;> split <;> decide
  · dsimp only
    split <;> split <;> decide

theorem Pending.next_eq_char {p : Pending} {b : UInt8} {c : Char} (h : p.next b = .char c) :
    p.left = 1 ∧ p.low ≤ b ∧ b ≤ p.high ∧ c = Char.ofNat (p.bits * 64 + (b.toNat - 0x80)) := by
  unfold next at h
  grind

theorem Pending.next_eq_more {p q : Pending} {b : UInt8} (h : p.next b = .more q) :
    p.left ≠ 1 ∧ p.low ≤ b ∧ b ≤ p.high ∧ q = ⟨p.bits * 64 + (b.toNat - 0x80), p.left - 1, 0x80, 0xBF⟩ := by
  unfold next at h
  grind

/-- A code point that the character begun may become, with `n + 1` bytes to come. -/
structure Pending.Completes (p : Pending) (n v : Nat) : Prop where
  bits : v / 64 ^ (n + 1) = p.bits
  low : p.low.toNat ≤ v / 64 ^ n % 64 + 0x80
  high : v / 64 ^ n % 64 + 0x80 ≤ p.high.toNat

theorem scan_pending {p : Pending} {bs : Bytes} {cs : List Char} (h : scan (some p) bs = cs.map some) :
    ∃ b r, bs = b :: r ∧
      ((∃ c ds, p.next b = .char c ∧ cs = c :: ds ∧ scan none r = ds.map some) ∨
        ∃ q, p.next b = .more q ∧ scan (some q) r = cs.map some) := by
  cases bs with
  | nil => cases cs <;> cases h
  | cons b r =>
      refine ⟨b, r, rfl, ?_⟩
      rw [scan] at h
      cases hnext : p.next b with
      | bad => rw [hnext] at h; cases cs <;> cases h
      | more q => exact .inr ⟨q, rfl, by rwa [hnext] at h⟩
      | char c =>
          rw [hnext] at h
          obtain ⟨d, ds, rfl, hd, hds⟩ := List.map_eq_cons_iff.mp h.symm
          exact .inl ⟨c, ds, rfl, by rw [Option.some.inj hd], hds.symm⟩

theorem exists_tail {n : Nat} {p : Pending} {bs : Bytes} {cs : List Char} (hleft : p.left = n + 1)
    (hlow : 0x80 ≤ p.low.toNat) (hhigh : p.high.toNat ≤ 0xBF) (h : scan (some p) bs = cs.map some) :
    ∃ v r ds, p.Completes n v ∧ bs = tail (n + 1) v ++ r ∧ cs = Char.ofNat v :: ds ∧
      scan none r = ds.map some := by
  -- Only the second byte of a character has a range of its own; behind it every continuation byte will do.
  induction n generalizing p bs cs with
  | zero =>
      obtain ⟨b, r, rfl, ⟨c, ds, hnext, rfl, hds⟩ | ⟨q, hnext, -⟩⟩ := scan_pending h
      · obtain ⟨-, hbl, hbh, hc⟩ := Pending.next_eq_char hnext
        rw [UInt8.le_iff_toNat_le] at hbl hbh
        have hb : (p.bits * 64 + (b.toNat - 0x80)) % 64 + 0x80 = b.toNat := by omega
        refine ⟨p.bits * 64 + (b.toNat - 0x80), r, ds, ⟨by omega, by omega, by omega⟩, ?_, hc ▸ rfl, hds⟩
        simp only [tail, Nat.pow_zero, Nat.div_one, hb, UInt8.ofNat_toNat, List.cons_append, List.nil_append]
      · exact absurd hleft (Pending.next_eq_more hnext).1
  | succ n ih =>
      obtain ⟨b, r, rfl, ⟨c, ds, hnext, rfl, hds⟩ | ⟨q, hnext, hq⟩⟩ := scan_pending h
      · have hone := (Pending.next_eq_char hnext).1
        omega
      · obtain ⟨-, hbl, hbh, rfl⟩ := Pending.next_eq_more hnext
        rw [UInt8.le_iff_toNat_le] at hbl hbh
        have hrest : p.left - 1 = n + 1 := by omega
        obtain ⟨v, r, ds, hv, rfl, rfl, hds⟩ := ih hrest (by simp) (by simp) hq
        have hbits : v / 64 ^ (n + 1) = p.bits * 64 + (b.toNat - 0x80) := hv.bits
        have hb : v / 64 ^ (n + 1) % 64 + 0x80 = b.toNat := by omega
        refine ⟨v, r, ds, ⟨?_, by omega, by omega⟩, ?_, rfl, hds⟩
        · rw [Nat.pow_succ, ← Nat.div_div_eq_div_mul, hbits]
          omega
        · rw [tail.eq_2 _ (n + 1), hb, UInt8.ofNat_toNat]
          rfl

/-- The range of the second byte keeps surrogates and overlong forms out. -/
theorem first_more_second {b : UInt8} {p : Pending} {k : Nat} (h : first b = .more p) (hlow : p.low.toNat ≤ k)
    (hhigh : k ≤ p.high.toNat) :
    (b.toNat = 0xE0 → 0xA0 ≤ k) ∧ (b.toNat = 0xED → k ≤ 0x9F) ∧ (b.toNat = 0xF0 → 0x90 ≤ k) ∧
      (b.toNat = 0xF4 → k ≤ 0x8F) := by
  refine ⟨fun hb => ?_, fun hb => ?_, fun hb => ?_, fun hb => ?_⟩
  · obtain rfl : b = 0xE0 := UInt8.toNat_inj.mp hb
    have hp : first 0xE0 = .more ⟨0, 2, 0xA0, 0xBF⟩ := rfl
    cases hp.symm.trans h
    exact hlow
  · obtain rfl : b = 0xED := UInt8.toNat_inj.mp hb
    have hp : first 0xED = .more ⟨13, 2, 0x80, 0x9F⟩ := rfl
    cases hp.symm.trans h
    exact hhigh
  · obtain rfl : b = 0xF0 := UInt8.toNat_inj.mp hb
    have hp : first 0xF0 = .more ⟨0, 3, 0x90, 0xBF⟩ := rfl
    cases hp.symm.trans h
    exact hlow
  · obtain rfl : b = 0xF4 := UInt8.toNat_inj.mp hb
    have hp : first 0xF4 = .more ⟨4, 3, 0x80, 0x8F⟩ := rfl
    cases hp.symm.trans h
    exact hhigh

/-- A code point that completes a first byte has that byte first in its form. -/
theorem encodeChar_of_completes {b : UInt8} {p : Pending} {n v : Nat} (h : first b = .more p)
    (hn : p.left = n + 1) (hv : p.Completes n v) :
    String.utf8EncodeChar (Char.ofNat v) = b :: tail (n + 1) v := by
  obtain ⟨hE0, hED, hF0, hF4⟩ := first_more_second h hv.low hv.high
  have hbits := hv.bits
  have hfirst : ∀ k : Nat, k = b.toNat → UInt8.ofNat k = b := fun k hk => by rw [hk, UInt8.ofNat_toNat]
  rcases first_eq_more h with ⟨hl, hh, rfl⟩ | ⟨hl, hh, rfl⟩ | ⟨hl, hh, rfl⟩
  · obtain rfl : n = 0 := Nat.succ.inj hn.symm
    dsimp only at hbits
    have hscalar : Scalar v := by unfold Scalar; omega
    rw [encodeChar_ofNat hscalar, if_neg (by omega), if_pos (by omega), hfirst _ (by omega)]
  · obtain rfl : n = 1 := Nat.succ.inj hn.symm
    dsimp only at hbits
    have hscalar : Scalar v := by unfold Scalar; omega
    rw [encodeChar_ofNat hscalar, if_neg (by omega), if_neg (by omega), if_pos (by omega), hfirst _ (by omega)]
  · obtain rfl : n = 2 := Nat.succ.inj hn.symm
    dsimp only at hbits
    have hscalar : Scalar v := by unfold Scalar; omega
    rw [encodeChar_ofNat hscalar, if_neg (by omega), if_neg (by omega), if_neg (by omega), hfirst _ (by omega)]

theorem encode_of_scan (bs : Bytes) (cs : List Char) (h : scan none bs = cs.map some) : encode cs = bs := by
  -- A character takes up to four bytes, so the induction is on the length.
  induction hlen : bs.length using Nat.strongRecOn generalizing bs cs with
  | ind len ih =>
      cases bs with
      | nil =>
          obtain rfl : cs = [] := by simpa [scan] using h
          rfl
      | cons b r =>
          rw [scan] at h
          cases hfirst : first b with
          | bad => rw [hfirst] at h; cases cs <;> cases h
          | char c =>
              obtain ⟨hlow, hc⟩ := first_eq_char hfirst
              rw [hfirst] at h
              obtain ⟨d, ds, rfl, hd, hds⟩ := List.map_eq_cons_iff.mp h.symm
              have hform : String.utf8EncodeChar d = [b] := by
                rw [Option.some.inj hd, hc, encodeChar_ofNat (.inl (by omega)), if_pos hlow, UInt8.ofNat_toNat]
              rw [encode_cons, hform, ih r.length (by rw [← hlen]; simp) r ds hds.symm rfl]
              rfl
          | more p =>
              rw [hfirst] at h
              obtain ⟨hleft, hlow, hhigh⟩ := first_more_bounds hfirst
              obtain ⟨n, hn⟩ := Nat.exists_eq_succ_of_ne_zero (Nat.ne_of_gt hleft)
              obtain ⟨v, r, ds, hv, rfl, rfl, hds⟩ := exists_tail hn hlow hhigh h
              have hrest := ih r.length (by rw [← hlen, List.length_cons, List.length_append]; omega) r ds hds rfl
              rw [encode_cons, encodeChar_of_completes hfirst hn hv, hrest, List.cons_append]

theorem mapM_id_eq_some_iff {os : List (Option Char)} {cs : List Char} :
    os.mapM id = some cs ↔ os = cs.map some := by
  induction os generalizing cs with
  | nil => cases cs <;> simp
  | cons o os ih =>
      cases o with
      | none => cases cs <;> simp
      | some c =>
          simp only [List.mapM_cons, id_eq, Option.bind_eq_bind, Option.bind_some, Option.bind_eq_some_iff, ih,
            Option.pure_def, Option.some.injEq]
          constructor
          · rintro ⟨ds, rfl, rfl⟩
            rfl
          · intro h
            obtain ⟨d, ds, rfl, hd, hds⟩ := List.map_eq_cons_iff.mp h.symm
            exact ⟨ds, hds.symm, by rw [Option.some.inj hd]⟩

/-- Bytes are read strictly exactly when they are the form of what is read. -/
theorem decode?_eq_some_iff {bs : Bytes} {cs : List Char} : decode? bs = some cs ↔ encode cs = bs := by
  rw [decode?, mapM_id_eq_some_iff]
  constructor
  · exact encode_of_scan bs cs
  · rintro rfl
    exact scan_encode cs

end ArrayBridge.Utf8
