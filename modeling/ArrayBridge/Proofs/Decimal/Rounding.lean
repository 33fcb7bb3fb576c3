import ArrayBridge.Proofs.Decimal.Digits
import ArrayBridge.Proofs.Ratio

/-!
Rounding to a number of significant digits, as arithmetic on rationals.
-/
namespace ArrayBridge

/-- `w` is `v` with `n` significant digits. -/
def Significant (n : ℕ) (v w : ℚ) : Prop :=
  ∃ k : ℤ, NearestEven (v / 10 ^ (Int.log 10 |v| - (n - 1))) k ∧ w = k * 10 ^ (Int.log 10 |v| - (n - 1))

theorem Significant.neg {n : ℕ} {v w : ℚ} (h : Significant n v w) : Significant n (-v) (-w) := by
  obtain ⟨k, hk, rfl⟩ := h
  refine ⟨-k, ?_, ?_⟩
  · rw [abs_neg, neg_div]
    exact hk.neg
  · rw [abs_neg, Int.cast_neg, neg_mul]

namespace Decimal

theorem digits_bounds {n : Nat} (h : 0 < n) :
    (10 : ℚ) ^ (((digits n).length : ℤ) - 1) ≤ n ∧ (n : ℚ) < 10 ^ (((digits n).length : ℤ) - 1 + 1) := by
  have hpos := length_digits_pos n
  have hexp : ((digits n).length : ℤ) - 1 = ((digits n).length - 1 : ℕ) := by omega
  rw [sub_add_cancel, hexp, zpow_natCast, zpow_natCast]
  exact_mod_cast And.intro (pow_length_digits_le h) (lt_pow_length_digits n)

theorem ten_zpow_pos (e : ℤ) : (0 : ℚ) < 10 ^ e := zpow_pos (by norm_num) e

theorem ten_zpow_succ (e : ℤ) : (10 : ℚ) ^ (e + 1) = 10 ^ e * 10 := zpow_add_one₀ (by norm_num) e

theorem log10_bounds {r : Ratio} (hnum : 0 < r.num) (hden : 0 < r.den) :
    (10 : ℚ) ^ log10 r ≤ r.toRat ∧ r.toRat < 10 ^ (log10 r + 1) := by
  have hexponent : log10 r = if r.atLeastPow 10 ((digits r.num).length - 1 - ((digits r.den).length - 1))
      then ((digits r.num).length : ℤ) - 1 - ((digits r.den).length - 1)
      else ((digits r.num).length : ℤ) - 1 - ((digits r.den).length - 1) - 1 := by
    rw [sub_sub_sub_cancel_right]
    rfl
  exact Ratio.toRat_bounds (b := 10) (by decide) (digits_bounds hnum) (digits_bounds hden) hexponent

theorem log_eq {v : ℚ} {e : ℤ} (hlow : 10 ^ e ≤ v) (hhigh : v < 10 ^ (e + 1)) : Int.log 10 v = e :=
  log_eq_of_bounds (by decide) (by exact_mod_cast hlow) (by exact_mod_cast hhigh)

variable {n : ℕ} {r : Ratio}

/-- A positive fraction scaled to `n` digits before the point and rounded: a number of `n` digits, or the power of ten
behind them. -/
theorem significant_eq (hn : 0 < n) (hnum : 0 < r.num) (hden : 0 < r.den) :
    ∃ k : ℕ, NearestEven (r.toRat / 10 ^ (log10 r - (n - 1))) k ∧ 10 ^ (n - 1) ≤ k ∧ k ≤ 10 ^ n ∧
      significant n r = if k = 10 ^ n then (10 ^ (n - 1), log10 r + 1) else (k, log10 r) := by
  obtain ⟨hlow, hhigh⟩ := log10_bounds hnum hden
  have hround := Ratio.round_nearest (Ratio.den_divPow_pos hden (by decide : 0 < 10) (log10 r - (n - 1 : ℕ)))
  rw [Ratio.toRat_divPow r (by decide), Nat.cast_ofNat, Nat.cast_sub hn, Nat.cast_one] at hround
  have hscale := ten_zpow_pos (log10 r - (n - 1))
  have hleast : ((10 ^ (n - 1) : ℕ) : ℚ) ≤ r.toRat / 10 ^ (log10 r - (n - 1)) := by
    rw [le_div_iff₀ hscale, Nat.cast_pow, Nat.cast_ofNat, ← zpow_natCast, Nat.cast_sub hn, Nat.cast_one,
      ← zpow_add₀ (by norm_num), add_sub_cancel]
    exact hlow
  have hmost : r.toRat / 10 ^ (log10 r - (n - 1)) ≤ ((10 ^ n : ℕ) : ℚ) := by
    rw [div_le_iff₀ hscale, Nat.cast_pow, Nat.cast_ofNat, ← zpow_natCast, ← zpow_add₀ (by norm_num),
      show (n : ℤ) + (log10 r - (n - 1)) = log10 r + 1 by ring]
    exact hhigh.le
  refine ⟨_, hround, ?_, ?_, ?_⟩
  · exact Int.ofNat_le.mp (hround.le_of_le (by exact_mod_cast hleast))
  · exact Int.ofNat_le.mp (hround.le_of_ge (by exact_mod_cast hmost))
  · rw [significant, if_neg hnum.ne', Nat.cast_sub hn]
    rfl

/-- The number that a coefficient of `n` digits and the exponent of its first one stand for. -/
def scaled (n : ℕ) (s : ℕ × ℤ) : ℚ := s.1 * 10 ^ (s.2 - (n - 1))

/-- What rounding to `n` digits gives: a coefficient of `n` digits, unless the number is zero, that is nearest on its
own scale as well. -/
structure Rounded (n : ℕ) (r : Ratio) (s : ℕ × ℤ) : Prop where
  coefficient_lt : s.1 < 10 ^ n
  log_eq : Int.log 10 (scaled n s) = s.2
  significant : Significant n r.toRat (scaled n s)
  nearest : NearestEven (r.toRat / 10 ^ (s.2 - (n - 1))) s.1

theorem log_scaled (hn : 0 < n) {c : ℕ} (hleast : 10 ^ (n - 1) ≤ c) (hlt : c < 10 ^ n) (e : ℤ) :
    Int.log 10 (scaled n (c, e)) = e := by
  have hscale := ten_zpow_pos (e - (n - 1))
  have hlow : (10 : ℚ) ^ ((n : ℤ) - 1) ≤ c := by
    rw [← Nat.cast_one, ← Nat.cast_sub hn, zpow_natCast]
    exact_mod_cast hleast
  have hhigh : (c : ℚ) < 10 ^ (n : ℤ) := by
    rw [zpow_natCast]
    exact_mod_cast hlt
  refine log_eq ?_ ?_
  · calc (10 : ℚ) ^ e = 10 ^ ((n : ℤ) - 1) * 10 ^ (e - (n - 1)) := by rw [← zpow_add₀ (by norm_num), add_sub_cancel]
      _ ≤ c * 10 ^ (e - (n - 1)) := mul_le_mul_of_nonneg_right hlow hscale.le
  · calc (c : ℚ) * 10 ^ (e - (n - 1)) < 10 ^ (n : ℤ) * 10 ^ (e - (n - 1)) := mul_lt_mul_of_pos_right hhigh hscale
      _ = 10 ^ (e + 1) := by
        rw [← zpow_add₀ (by norm_num)]
        congr 1
        ring

theorem zero_rounded (n : ℕ) (h : r.toRat = 0) : Rounded n r (0, 0) := by
  have hscaled : scaled n (0, 0) = 0 := by rw [scaled, Nat.cast_zero, zero_mul]
  refine ⟨Nat.pow_pos (by decide), ?_, ⟨0, ?_, ?_⟩, ?_⟩
  · rw [hscaled, Int.log_zero_right]
  · rw [h, zero_div]
    exact .zero
  · rw [hscaled, Int.cast_zero, zero_mul]
  · rw [h, zero_div]
    exact .zero

theorem ten_pow_eq (hn : 0 < n) : 10 ^ n = 10 * 10 ^ (n - 1) := by rw [← pow_succ', Nat.sub_add_cancel hn]

theorem scaled_carry (hn : 0 < n) (e : ℤ) : scaled n (10 ^ (n - 1), e + 1) = scaled n (10 ^ n, e) := by
  rw [scaled, scaled, add_sub_right_comm, ten_zpow_succ, ten_pow_eq hn]
  push_cast
  ring

theorem nearest_carry (hn : 0 < n) {v : ℚ} {e : ℤ} (h : NearestEven (v / 10 ^ (e - (n - 1))) (10 ^ n : ℕ)) :
    NearestEven (v / 10 ^ (e + 1 - (n - 1))) (10 ^ (n - 1) : ℕ) := by
  rw [ten_pow_eq hn, Nat.cast_mul, Nat.cast_ofNat] at h
  rw [add_sub_right_comm, ten_zpow_succ, ← div_div]
  exact h.div_ten

theorem significant_rounded (hn : 0 < n) (hden : 0 < r.den) : Rounded n r (significant n r) := by
  rcases Nat.eq_zero_or_pos r.num with hzero | hnum
  · rw [significant, if_pos hzero]
    exact zero_rounded n (by rw [Ratio.toRat, hzero, Nat.cast_zero, zero_div])
  obtain ⟨hlow, hhigh⟩ := log10_bounds hnum hden
  have hlog : Int.log 10 |r.toRat| = log10 r := by
    rw [abs_of_pos ((ten_zpow_pos _).trans_le hlow), log_eq hlow hhigh]
  obtain ⟨k, hk, hleast, hmost, heq⟩ := significant_eq hn hnum hden
  have hsignificant : Significant n r.toRat (scaled n (k, log10 r)) := by
    rw [Significant, hlog]
    exact ⟨k, hk, rfl⟩
  rw [heq]
  split
  · next hcarry =>
      -- A tenth of the coefficient on the next scale is the same number.
      subst hcarry
      have hlt : 10 ^ (n - 1) < 10 ^ n := Nat.pow_lt_pow_right (by decide) (Nat.sub_lt hn Nat.one_pos)
      exact ⟨hlt, log_scaled hn le_rfl hlt _, scaled_carry hn _ ▸ hsignificant, nearest_carry hn hk⟩
  · next hcarry =>
      have hlt : k < 10 ^ n := lt_of_le_of_ne hmost hcarry
      exact ⟨hlt, log_scaled hn hleast hlt _, hsignificant, hk⟩

/-- Rounded to as many places as the digits fill, a number has the same coefficient. -/
theorem Rounded.places_eq {s : ℕ × ℤ} (h : Rounded n r s) (hden : 0 < r.den) (hfits : s.2 ≤ n - 1) :
    places (n - 1 - s.2).toNat r = s.1 := by
  have hwidth : -((n - 1 - s.2).toNat : ℤ) = s.2 - (n - 1) := by omega
  have hround := Ratio.round_nearest (Ratio.den_divPow_pos hden (by decide : 0 < 10) (s.2 - (n - 1)))
  rw [Ratio.toRat_divPow r (by decide), Nat.cast_ofNat] at hround
  rw [places, Ratio.mulPow, hwidth]
  exact Int.ofNat_inj.mp (hround.unique h.nearest)

end Decimal

end ArrayBridge
