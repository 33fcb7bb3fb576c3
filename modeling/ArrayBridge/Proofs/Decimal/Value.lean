import ArrayBridge.Proofs.Binary64.Nearest
import ArrayBridge.Proofs.Decimal.Notation

/-!
A numeral is read as the double nearest to the number that it stands for.
-/
namespace ArrayBridge.Decimal

variable {c : ℕ} {e : ℤ}

theorem two_pow_le_ten_pow (k : ℕ) : (2 : ℚ) ^ (3 * k) ≤ 10 ^ k := by
  rw [pow_mul]
  exact pow_le_pow_left₀ (by norm_num) (by norm_num) k

/-- A coefficient moves its first digit, wherever the exponent puts the point. -/
theorem coefficient_bounds (hc : 0 < c) (e : ℤ) :
    (10 : ℚ) ^ ((digits c).length + e - 1) ≤ c * 10 ^ e ∧ (c : ℚ) * 10 ^ e < 10 ^ ((digits c).length + e) := by
  obtain ⟨hlow, hhigh⟩ := digits_bounds hc
  have hleast : ((digits c).length : ℤ) + e - 1 = (digits c).length - 1 + e := by ring
  rw [sub_add_cancel] at hhigh
  rw [hleast, zpow_add₀ (by norm_num), zpow_add₀ (by norm_num)]
  exact ⟨mul_le_mul_of_nonneg_right hlow (ten_zpow_pos e).le, mul_lt_mul_of_pos_right hhigh (ten_zpow_pos e)⟩

/-- With four hundred zeros behind the point a number is too small for a double. -/
theorem lt_two_zpow (htop : (digits c).length + e < -400) : (c : ℚ) * 10 ^ e < 2 ^ (-1075 : ℤ) := by
  rcases Nat.eq_zero_or_pos c with rfl | hc
  · rw [Nat.cast_zero, zero_mul]
    exact Binary64.two_zpow_pos _
  calc (c : ℚ) * 10 ^ e < 10 ^ ((digits c).length + e) := (coefficient_bounds hc e).2
    _ ≤ 10 ^ (-(400 : ℕ) : ℤ) := zpow_le_zpow_right₀ (by norm_num) (by omega)
    _ = (10 ^ 400)⁻¹ := by rw [zpow_neg, zpow_natCast]
    _ ≤ (2 ^ (3 * 400))⁻¹ := inv_anti₀ (pow_pos two_pos _) (two_pow_le_ten_pow 400)
    _ = 2 ^ (-(3 * 400 : ℕ) : ℤ) := by rw [zpow_neg, zpow_natCast]
    _ ≤ 2 ^ (-1075 : ℤ) := zpow_le_zpow_right₀ one_le_two (by decide)

/-- With more than four hundred digits before the point it is too large. -/
theorem two_pow_le (hc : 0 < c) (htop : 400 < (digits c).length + e) : (2 : ℚ) ^ 1024 ≤ c * 10 ^ e :=
  calc (2 : ℚ) ^ 1024 ≤ 2 ^ (3 * 400) := pow_le_pow_right₀ one_le_two (by decide)
    _ ≤ 10 ^ 400 := two_pow_le_ten_pow 400
    _ = 10 ^ (400 : ℤ) := (zpow_natCast 10 400).symm
    _ ≤ 10 ^ ((digits c).length + e - 1) := zpow_le_zpow_right₀ (by norm_num) (by omega)
    _ ≤ c * 10 ^ e := (coefficient_bounds hc e).1

theorem nearest_exact (negative : Bool) (c : ℕ) (e : ℤ) : Binary64.Nearest negative (c * 10 ^ e) (nearest negative c e) := by
  have hrat : ((⟨c, 1⟩ : Ratio).mulPow 10 e).toRat = c * 10 ^ e := by
    rw [Ratio.toRat_mulPow _ (by decide), Ratio.toRat_whole, Nat.cast_ofNat]
  have hden : 0 < ((⟨c, 1⟩ : Ratio).mulPow 10 e).den := Ratio.den_divPow_pos Nat.one_pos (by decide) _
  have hnonneg : (0 : ℚ) ≤ c * 10 ^ e := mul_nonneg c.cast_nonneg (ten_zpow_pos e).le
  rw [nearest]
  split
  · next hsmall =>
      refine Binary64.nearest_zero negative hnonneg ?_
      rcases hsmall with rfl | htop
      · rw [Nat.cast_zero, zero_mul]
        exact Binary64.two_zpow_pos _
      · exact lt_two_zpow htop
  · next hsome =>
      obtain ⟨hc, -⟩ := not_or.mp hsome
      rw [← hrat]
      split
      · next htop => exact Binary64.nearest_infinity negative hden (hrat ▸ two_pow_le (Nat.pos_of_ne_zero hc) htop)
      · exact Binary64.nearest_ofRatio negative hden

theorem Numeral.nearest_value (n : Numeral) : Binary64.Nearest n.negative |n.toRat| n.value := by
  have hnonneg : 0 ≤ pointedValue n.whole n.fraction n.exponent := mul_nonneg (Nat.cast_nonneg _) (ten_zpow_pos _).le
  rw [toRat, abs_signFactor_mul _ hnonneg, pointedValue, ← digitsValue_eq]
  exact nearest_exact n.negative _ _

end ArrayBridge.Decimal
