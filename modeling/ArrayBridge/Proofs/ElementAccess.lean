import ArrayBridge.Proofs.ElementBytes

/-!
Reading single elements. The positions in the data are words of 64 bits, as its length is. An index whose positions do
not fit stops a program that was built with checks; without them it comes round to the element of a smaller one.
-/
namespace ArrayBridge

namespace Build

variable {n : Nat}

theorem word_wrapping (n : Nat) : wrapping.word n = .ok (.ofNat n) := rfl

theorem word_of_lt (m : Build) (h : n < 2 ^ 64) : m.word n = .ok (.ofNat n) :=
  if_neg fun hover => absurd h (Nat.not_lt.mpr hover.2)

theorem word_checked_of_le (h : 2 ^ 64 ≤ n) : checked.word n = .error .stopped := if_pos ⟨rfl, h⟩

end Build

namespace ElementType

/-- How many elements of a type 64-bit positions tell apart. -/
def span (t : ElementType) : Nat := 2 ^ 64 / t.size

theorem span_mul_size (t : ElementType) : t.span * t.size = 2 ^ 64 := by
  cases t <;> decide

theorem two_le_span (t : ElementType) : 2 ≤ t.span := by
  cases t <;> decide

theorem span_dvd (t : ElementType) : t.span ∣ 2 ^ 64 := ⟨t.size, t.span_mul_size.symm⟩

/-- The position of an element, which is that of the element with the remaining index. -/
theorem mul_size_mod (t : ElementType) (i : Nat) : i * t.size % 2 ^ 64 = i % t.span * t.size := by
  rw [← t.span_mul_size, Nat.mul_mod_mul_right]

theorem succ_mod_span (t : ElementType) (i : Nat) : (i + 1) % 2 ^ 64 % t.span = (i % t.span + 1) % t.span := by
  rw [Nat.mod_mod_of_dvd _ t.span_dvd, Nat.mod_add_mod]

end ElementType

namespace NumericArray

variable {a : NumericArray} {i : UInt64}

/-- Element `k`, read from its own bytes. -/
def elementAt (a : NumericArray) (k : Nat) : a.type.Value := a.type.load (a.data.slice (k * a.type.size) a.type.size)

theorem lt_count_iff {k : Nat} : k < a.count ↔ (k + 1) * a.type.size ≤ a.data.length := by
  rw [count, Nat.lt_iff_add_one_le, Nat.le_div_iff_mul_le a.type.size_pos]

theorem count_lt_span (h : a.data.length ≤ 0xFFFFFFFFFFFFFFFF) : a.count < a.type.span := by
  rw [count, Nat.div_lt_iff_lt_mul a.type.size_pos, a.type.span_mul_size]
  omega

/-- The bytes between two positions. -/
def between (a : NumericArray) (low high : Nat) : Option Bytes :=
  if low ≤ high ∧ high ≤ a.data.length then some (a.data.slice low (high - low)) else none

theorem elementBytes_eq (m : Build) (a : NumericArray) (i : UInt64) :
    a.elementBytes m i =
      (m.word (i.toNat * a.type.size)).bind fun low => (m.word (i.toNat + 1)).bind fun next =>
        (m.word (next.toNat * a.type.size)).bind fun high => .ok (a.between low.toNat high.toNat) := by
  rw [← a.type.toNat_size]
  rfl

/-- Element `k`, if there is one. -/
theorem between_mul_size (a : NumericArray) (k : Nat) :
    a.between (k * a.type.size) ((k + 1) * a.type.size) =
      if k < a.count then some (a.data.slice (k * a.type.size) a.type.size) else none := by
  have hwidth : (k + 1) * a.type.size = k * a.type.size + a.type.size := Nat.succ_mul _ _
  rw [between]
  by_cases hk : k < a.count
  · rw [if_pos ⟨by omega, lt_count_iff.mp hk⟩, if_pos hk, hwidth, Nat.add_sub_cancel_left]
  · rw [if_neg fun hfits => hk (lt_count_iff.mpr hfits.2), if_neg hk]

theorem elementBytes_of_fits (m : Build) (h : (i.toNat + 1) * a.type.size < 2 ^ 64) :
    a.elementBytes m i =
      .ok (if i.toNat < a.count then some (a.data.slice (i.toNat * a.type.size) a.type.size) else none) := by
  have hpos := a.type.size_pos
  have hlow : i.toNat * a.type.size < 2 ^ 64 := (Nat.mul_le_mul_right _ (Nat.le_succ _)).trans_lt h
  have hnext : i.toNat + 1 < 2 ^ 64 := (Nat.le_mul_of_pos_right _ hpos).trans_lt h
  rw [elementBytes_eq, m.word_of_lt hlow, m.word_of_lt hnext]
  simp only [Except.bind, UInt64.toNat_ofNat_of_lt' hlow, UInt64.toNat_ofNat_of_lt' hnext]
  rw [m.word_of_lt h]
  simp only [UInt64.toNat_ofNat_of_lt' h]
  rw [between_mul_size]

theorem elementBytes_checked (h : 2 ^ 64 ≤ (i.toNat + 1) * a.type.size) :
    a.elementBytes .checked i = .error .stopped := by
  rw [elementBytes_eq]
  rcases Nat.lt_or_ge (i.toNat * a.type.size) (2 ^ 64) with hlow | hlow
  · rcases Nat.lt_or_ge (i.toNat + 1) (2 ^ 64) with hnext | hnext
    · rw [Build.word_of_lt _ hlow, Build.word_of_lt _ hnext]
      simp only [Except.bind, UInt64.toNat_ofNat_of_lt' hnext]
      rw [Build.word_checked_of_le h]
    · rw [Build.word_of_lt _ hlow, Build.word_checked_of_le hnext]
      rfl
  · rw [Build.word_checked_of_le hlow]
    rfl

theorem elementBytes_wrapping (h : a.data.length ≤ 0xFFFFFFFFFFFFFFFF) (i : UInt64) :
    a.elementBytes .wrapping i =
      .ok (if i.toNat % a.type.span < a.count then
        some (a.data.slice (i.toNat % a.type.span * a.type.size) a.type.size)
      else none) := by
  have hspan := a.type.two_le_span
  have hcount := count_lt_span h
  have hlt : i.toNat % a.type.span < a.type.span := Nat.mod_lt _ (by omega)
  simp only [elementBytes_eq, Build.word_wrapping, Except.bind, UInt64.toNat_ofNat', ElementType.mul_size_mod,
    ElementType.succ_mod_span]
  generalize i.toNat % a.type.span = k at hlt
  -- The end of the last element that positions tell apart is 2 ^ 64, which comes round to 0.
  by_cases hlast : k + 1 = a.type.span
  · have hpos : 0 < k * a.type.size := Nat.mul_pos (by omega) a.type.size_pos
    rw [hlast, Nat.mod_self, Nat.zero_mul, between, if_neg (by omega), if_neg (by omega)]
  · rw [Nat.mod_eq_of_lt (by omega), between_mul_size]

theorem fits_of_lt_count (h : a.data.length ≤ 0xFFFFFFFFFFFFFFFF) {k : Nat} (hk : k < a.count) :
    (k + 1) * a.type.size < 2 ^ 64 :=
  ((lt_count_iff.mp hk).trans h).trans_lt (by decide)

theorem elementBytes_of_lt_count (m : Build) (h : a.data.length ≤ 0xFFFFFFFFFFFFFFFF) (hi : i.toNat < a.count) :
    a.elementBytes m i = .ok (some (a.data.slice (i.toNat * a.type.size) a.type.size)) := by
  rw [elementBytes_of_fits m (fits_of_lt_count h hi), if_pos hi]

/-- The one element of an array is what its first bytes say, whatever is left behind them. -/
theorem of_toList?_singleton {e : a.type.Value} (h : a.toList? a.type = some [e]) :
    a.isScalar = true ∧ a.elementBytes .checked 0 = .ok (some (a.data.take a.type.size)) ∧
      a.type.load (a.data.take a.type.size) = e := by
  have hcount : a.count = 1 := count_of_toList? h
  have hscalar : a.isScalar = true := decide_eq_true hcount
  have hlist := (toList?_of_isScalar hscalar).symm.trans h
  refine ⟨hscalar, ?_, (List.cons.inj (Option.some.inj hlist)).1⟩
  have hsize := a.type.size_le
  have hfits : ((0 : UInt64).toNat + 1) * a.type.size < 2 ^ 64 := by
    rw [UInt64.toNat_zero]
    omega
  rw [elementBytes_of_fits .checked hfits, UInt64.toNat_zero, hcount, if_pos Nat.one_pos, Nat.zero_mul, Bytes.slice,
    List.drop_zero]

theorem double?_zero {e : a.type.Value} (h : a.toList? a.type = some [e]) :
    a.double? 0 = some (a.type.toDouble e) := by
  obtain ⟨-, hbytes, hload⟩ := of_toList?_singleton h
  rw [double?, elementDouble, hbytes, ← hload]
  rfl

theorem int64?_zero {e : a.type.Value} (h : a.toList? a.type = some [e]) :
    a.int64? 0 = some (a.type.toInt64 e) := by
  obtain ⟨-, hbytes, hload⟩ := of_toList?_singleton h
  rw [int64?, elementInt64, hbytes, ← hload]
  rfl

theorem length_slice_of_lt_count {k : Nat} (hk : k < a.count) :
    (a.data.slice (k * a.type.size) a.type.size).length = a.type.size :=
  Bytes.length_slice (Nat.succ_mul k a.type.size ▸ lt_count_iff.mp hk)

/-- An index below the number of elements reads the bytes at its place. Behind these there is nothing as long as the
positions fit. Where they do not, a program with checks stops, and one without them reads what the remaining index
reads. -/
theorem element_exact (a : NumericArray) (h : a.data.length ≤ 0xFFFFFFFFFFFFFFFF) (i : UInt64) :
    (i.toNat < a.count → ∃ x y,
        ReadsDouble a.type ((a.data.drop (i.toNat * a.type.size)).take a.type.size) x ∧
        ReadsInt64 a.type ((a.data.drop (i.toNat * a.type.size)).take a.type.size) y ∧
        ∀ m, a.elementDouble m i = .ok (some x) ∧ a.elementInt64 m i = .ok (some y)) ∧
      (a.count ≤ i.toNat → (i.toNat + 1) * a.type.size < 2 ^ 64 → ∀ m,
        a.elementDouble m i = .ok none ∧ a.elementInt64 m i = .ok none) ∧
      (2 ^ 64 ≤ (i.toNat + 1) * a.type.size →
        a.elementDouble .checked i = .error .stopped ∧ a.elementInt64 .checked i = .error .stopped) ∧
      ∀ k : UInt64, k.toNat = i.toNat % a.type.span →
        (k.toNat < a.count → a.elementDouble .wrapping i = a.elementDouble .wrapping k ∧
          a.elementInt64 .wrapping i = a.elementInt64 .wrapping k) ∧
        (a.count ≤ k.toNat → a.elementDouble .wrapping i = .ok none ∧ a.elementInt64 .wrapping i = .ok none) := by
  refine ⟨fun hi => ?_, fun hi hfits m => ?_, fun hover => ?_, fun k hk => ⟨fun hlt => ?_, fun hle => ?_⟩⟩
  · have hlen := length_slice_of_lt_count hi
    refine ⟨_, _, readsDouble hlen, readsInt64 hlen, fun m => ?_⟩
    rw [elementDouble, elementInt64, elementBytes_of_lt_count m h hi]
    exact ⟨rfl, rfl⟩
  · rw [elementDouble, elementInt64, elementBytes_of_fits m hfits, if_neg (Nat.not_lt.mpr hi)]
    exact ⟨rfl, rfl⟩
  · rw [elementDouble, elementInt64, elementBytes_checked hover]
    exact ⟨rfl, rfl⟩
  · have hsame : a.elementBytes .wrapping i = a.elementBytes .wrapping k := by
      rw [elementBytes_wrapping h, ← hk, if_pos hlt, elementBytes_of_lt_count .wrapping h hlt]
    rw [elementDouble, elementDouble, elementInt64, elementInt64, hsame]
    exact ⟨rfl, rfl⟩
  · rw [elementDouble, elementInt64, elementBytes_wrapping h, ← hk, if_neg (Nat.not_lt.mpr hle)]
    exact ⟨rfl, rfl⟩

theorem element_exact_row :
    (∃ x, ReadsDouble .int16 [0xFE, 0xFF] x ∧ ReadsInt64 .int16 [0xFE, 0xFF] (-2) ∧
        ∀ m, (row .int16 [1, -2]).elementDouble m 1 = .ok (some x) ∧
          (row .int16 [1, -2]).elementInt64 m 1 = .ok (some (-2))) ∧
      (∀ m, (row .int16 [1, -2]).elementInt64 m 2 = .ok none) ∧
      (row .int16 [1, -2]).elementInt64 .checked 0x8000000000000001 = .error .stopped ∧
      (row .int16 [1, -2]).elementInt64 .wrapping 0x8000000000000001 = .ok (some (-2)) := by
  have h : (row .int16 [1, -2]).data.length ≤ 0xFFFFFFFFFFFFFFFF := by decide
  have hlast : (row .int16 [1, -2]).elementInt64 .wrapping 1 = .ok (some (-2)) := by decide
  refine ⟨?_, fun m => ?_, ?_, ?_⟩
  · obtain ⟨x, y, hx, hy, hread⟩ := (element_exact _ h 1).1 (by decide)
    cases (hread .wrapping).2.symm.trans hlast
    exact ⟨x, hx, hy, hread⟩
  · exact ((element_exact _ h 2).2.1 (by decide) (by decide) m).2
  · exact ((element_exact _ h 0x8000000000000001).2.2.1 (by decide)).2
  · exact (((element_exact _ h 0x8000000000000001).2.2.2 1 (by decide)).1 (by decide)).2.trans hlast

/-- Behind the last index whose positions fit there is no answer with checks, and without them the first element comes
again. -/
theorem element_beyond_words :
    (row .double [⟨0x3FF8000000000000⟩]).count = 1 ∧
      (row .double [⟨0x3FF8000000000000⟩]).elementDouble .checked 0x2000000000000000 = .error .stopped ∧
      (row .double [⟨0x3FF8000000000000⟩]).elementDouble .wrapping 0x2000000000000000 =
        .ok (some ⟨0x3FF8000000000000⟩) ∧
      (row .double [⟨0x3FF8000000000000⟩]).elementInt64 .wrapping 0x2000000000000000 = .ok (some 1) := by
  decide

end NumericArray

end ArrayBridge
