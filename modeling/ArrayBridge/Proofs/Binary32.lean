import ArrayBridge.Proofs.Binary64.Nearest

/-!
Singles by the arithmetic of their format, and as doubles of the same value.
-/
namespace ArrayBridge

open FloatFormat (double single)

/-- The words of a number in some format and of a double that stand for the same value. -/
inductive Widened (f : FloatFormat) (a b : ℕ) : Prop
  | finite {negative : Bool} {v : ℚ} : f.Finite negative a v → double.Finite negative b v → Widened f a b
  | infinite {negative : Bool} : f.Infinite negative a → double.Infinite negative b → Widened f a b

theorem Binary64.widened {x : Binary64} (h : ¬x.isNaN = true) : Widened double x.bits.toNat x.bits.toNat := by
  rcases Nat.lt_or_eq_of_le (Nat.not_lt.mp fun hlt => h (decide_eq_true hlt)) with hcode | hcode
  · have hfinite := finite_iff.mpr ⟨rfl, hcode, rfl⟩
    exact .finite hfinite hfinite
  · have hinfinite := infinite_iff.mpr ⟨rfl, hcode⟩
    exact .infinite hinfinite hinfinite

namespace Binary32

variable {negative : Bool} {v : ℚ} {x : Binary32} {b : ℕ}

theorem code_lt (x : Binary32) : x.code < 2 ^ 31 := Nat.mod_lt _ (by decide)

theorem toNat_bits (x : Binary32) : x.bits.toNat = x.code + single.sign x.negative := by
  have hlt := x.bits.toNat_lt
  rw [code, Binary32.negative, signBit]
  by_cases hnegative : 0x80000000 ≤ x.bits.toNat
  · have hsign : single.sign true = 0x80000000 := rfl
    rw [decide_eq_true hnegative, hsign]
    omega
  · have hsign : single.sign false = 0 := rfl
    rw [decide_eq_false hnegative, hsign]
    omega

theorem exponent_eq (x : Binary32) : x.exponent = single.exponent x.code := by
  rw [exponent, FloatFormat.exponent, Nat.cast_sub (le_max_left _ _), sub_add]
  rfl

theorem finite_iff :
    single.Finite negative x.bits.toNat v ↔
      x.negative = negative ∧ x.code < infinityCode ∧ x.mantissa * 2 ^ x.exponent = v := by
  rw [x.toNat_bits, x.exponent_eq]
  exact FloatFormat.finite_iff (by decide) x.code_lt

theorem infinite_iff : single.Infinite negative x.bits.toNat ↔ x.negative = negative ∧ x.code = infinityCode := by
  rw [x.toNat_bits]
  exact FloatFormat.infinite_iff (by decide) x.code_lt

theorem not_isNaN_of_le (h : x.code ≤ infinityCode) : ¬x.isNaN = true := fun hnan =>
  Nat.not_lt.mpr h (of_decide_eq_true hnan)

theorem nan_iff : single.NaN x.bits.toNat ↔ x.isNaN = true :=
  (decide_eq_true_iff (p := infinityCode < x.code)).symm

/-! Every single as a double. -/

theorem finite_toBinary64 (h : x.code < infinityCode) :
    double.Finite x.negative x.toBinary64.bits.toNat (x.mantissa * 2 ^ x.exponent) := by
  have hnearest := Binary64.nearest_ofRatio x.negative (r := (⟨x.mantissa, 1⟩ : Ratio).mulPow 2 x.exponent)
    (Ratio.den_divPow_pos Nat.one_pos two_pos _)
  rw [Ratio.toRat_mulPow _ two_pos, Ratio.toRat_whole, Nat.cast_ofNat] at hnearest
  rw [toBinary64, if_neg (not_isNaN_of_le h.le), if_neg h.ne]
  obtain ⟨k, hk, hcode, hm, -⟩ := FloatFormat.exists_exponent (f := single) (by decide) x.code
  have hexponent : x.exponent = k + -149 := x.exponent_eq.trans hk
  have hmantissa : x.mantissa < 2 ^ 24 := hm
  have hlimit : k * 2 ^ 23 < 255 * 2 ^ 23 := (Nat.le_of_add_right_le hcode.ge).trans_lt h
  refine hnearest.finite_of_rounds (Binary64.rounds_self (hmantissa.trans (by decide)) (by omega)) ?_
  calc (x.mantissa : ℚ) * 2 ^ x.exponent ≤ 2 ^ (24 : ℤ) * 2 ^ (106 : ℤ) := by
        refine mul_le_mul (by exact_mod_cast hmantissa.le) ?_ (Binary64.two_zpow_pos _).le (by norm_num)
        exact zpow_le_zpow_right₀ one_le_two (by omega)
    _ = 2 ^ 130 := by norm_num
    _ < 2 ^ 1024 := pow_lt_pow_right₀ one_lt_two (by decide)

theorem infinite_toBinary64 (h : x.code = infinityCode) : double.Infinite x.negative x.toBinary64.bits.toNat := by
  rw [toBinary64, if_neg (not_isNaN_of_le h.le), if_pos h]
  exact Binary64.toNat_bits_ofCode x.negative (by decide)

theorem widened_iff : Widened single x.bits.toNat b ↔ ¬x.isNaN = true ∧ b = x.toBinary64.bits.toNat := by
  constructor
  · intro h
    cases h with
    | finite hsingle hdouble =>
        obtain ⟨rfl, hcode, rfl⟩ := finite_iff.mp hsingle
        exact ⟨not_isNaN_of_le hcode.le, hdouble.unique (by decide) (finite_toBinary64 hcode)⟩
    | infinite hsingle hdouble =>
        obtain ⟨rfl, hcode⟩ := infinite_iff.mp hsingle
        exact ⟨not_isNaN_of_le hcode.le, Eq.trans hdouble (infinite_toBinary64 hcode).symm⟩
  · rintro ⟨hnan, rfl⟩
    rcases Nat.lt_or_eq_of_le (Nat.not_lt.mp fun hlt => hnan (decide_eq_true hlt)) with hcode | hcode
    · exact .finite (finite_iff.mpr ⟨rfl, hcode, rfl⟩) (finite_toBinary64 hcode)
    · exact .infinite (infinite_iff.mpr ⟨rfl, hcode⟩) (infinite_toBinary64 hcode)

end Binary32

end ArrayBridge
