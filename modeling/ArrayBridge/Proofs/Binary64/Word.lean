import ArrayBridge.Proofs.FloatFormat

/-!
Doubles by the arithmetic of their format, and cut off to whole numbers.
-/
namespace ArrayBridge.Binary64

open FloatFormat (double)

variable {negative : Bool} {v : ℚ} {x y : Binary64}

theorem eq_of_bits (h : x.bits.toNat = y.bits.toNat) : x = y := by
  cases x
  cases y
  exact congrArg Binary64.mk (UInt64.toNat_inj.mp h)

theorem toNat_bits_ofCode (negative : Bool) {c : ℕ} (h : c < signBit) :
    (ofCode negative c).bits.toNat = c + double.sign negative := by
  have hsign : signBit = 2 ^ 63 := rfl
  have hsize : UInt64.size = 2 ^ 64 := rfl
  cases negative with
  | false => exact UInt64.toNat_ofNat_of_lt' (by change c + 0 < UInt64.size; omega)
  | true => exact UInt64.toNat_ofNat_of_lt' (by change c + signBit < UInt64.size; omega)

theorem code_lt (x : Binary64) : x.code < 2 ^ 63 := Nat.mod_lt _ (by decide)

theorem toNat_bits (x : Binary64) : x.bits.toNat = x.code + double.sign x.negative := by
  have hlt := x.bits.toNat_lt
  rw [code, Binary64.negative, signBit]
  by_cases hnegative : 0x8000000000000000 ≤ x.bits.toNat
  · have hsign : double.sign true = 0x8000000000000000 := rfl
    rw [decide_eq_true hnegative, hsign]
    omega
  · have hsign : double.sign false = 0 := rfl
    rw [decide_eq_false hnegative, hsign]
    omega

theorem exponent_eq (x : Binary64) : x.exponent = double.exponent x.code := by
  rw [exponent, FloatFormat.exponent, Nat.cast_sub (le_max_left _ _), sub_add]
  rfl

theorem finite_iff :
    double.Finite negative x.bits.toNat v ↔
      x.negative = negative ∧ x.code < infinityCode ∧ x.mantissa * 2 ^ x.exponent = v := by
  rw [x.toNat_bits, x.exponent_eq]
  exact FloatFormat.finite_iff (by decide) x.code_lt

theorem infinite_iff : double.Infinite negative x.bits.toNat ↔ x.negative = negative ∧ x.code = infinityCode := by
  rw [x.toNat_bits]
  exact FloatFormat.infinite_iff (by decide) x.code_lt

theorem nan_iff : double.NaN x.bits.toNat ↔ x.isNaN = true :=
  (decide_eq_true_iff (p := infinityCode < x.code)).symm

theorem finite_zero (negative : Bool) : double.Finite negative (zero negative).bits.toNat 0 := by
  have hzero : double.Finite negative (0 * 2 ^ (double.precision - 1) + 0 + double.sign negative) _ :=
    .intro (by decide) (.inl rfl) (by decide)
  rw [zero, toNat_bits_ofCode negative (by decide)]
  simpa only [Nat.cast_zero, zero_mul, add_zero] using hzero

/-! The fraction that a finite double is. -/

theorem den_ratio_pos (x : Binary64) : 0 < x.ratio.den := Ratio.den_divPow_pos Nat.one_pos (by decide) _

theorem toRat_ratio (x : Binary64) : x.ratio.toRat = x.mantissa * 2 ^ x.exponent := by
  rw [ratio, Ratio.toRat_mulPow _ (by decide), Ratio.toRat_whole, Nat.cast_ofNat]

theorem floor_ratio (x : Binary64) : (x.ratio.floor : ℤ) = ⌊(x.mantissa * 2 ^ x.exponent : ℚ)⌋ := by
  rw [← x.toRat_ratio, Ratio.toRat, Ratio.floor]
  exact (Rat.floor_natCast_div_natCast _ _).symm

/-! Cut off to a signed word. -/

theorem toInt64_bounds (x : Binary64) : -2 ^ 63 ≤ x.toInt64 ∧ x.toInt64 < 2 ^ 63 := by
  rw [toInt64]
  dsimp only
  split
  · omega
  · split
    · split <;> omega
    · omega

theorem toInt64_of_nan (h : double.NaN x.bits.toNat) : x.toInt64 = 0 := if_pos (nan_iff.mp h)

theorem not_isNaN_of_le (h : x.code ≤ infinityCode) : ¬x.isNaN = true := fun hnan =>
  Nat.not_lt.mpr h (of_decide_eq_true hnan)

theorem toInt64_of_infinite (h : double.Infinite negative x.bits.toNat) :
    x.toInt64 = if negative then -2 ^ 63 else 2 ^ 63 - 1 := by
  obtain ⟨rfl, hcode⟩ := infinite_iff.mp h
  have hinfinite : x.isInfinite = true := decide_eq_true hcode
  rw [toInt64, if_neg (not_isNaN_of_le hcode.le), if_pos hinfinite]
  rfl

theorem toInt64_of_finite (h : double.Finite negative x.bits.toNat v) :
    x.toInt64 = max (-2 ^ 63) (min (2 ^ 63 - 1) (if negative then -⌊v⌋ else ⌊v⌋)) := by
  obtain ⟨rfl, hcode, rfl⟩ := finite_iff.mp h
  have hinfinite : ¬x.isInfinite = true := fun he => hcode.ne (of_decide_eq_true he)
  rw [toInt64, if_neg (not_isNaN_of_le hcode.le), if_neg hinfinite, x.floor_ratio]
  rfl

end ArrayBridge.Binary64
