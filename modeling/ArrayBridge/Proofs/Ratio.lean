import ArrayBridge.Binary64
import Mathlib.Algebra.Order.Field.Rat
import Mathlib.Data.Int.Log
import Mathlib.Data.Rat.Floor
import Mathlib.Tactic.FieldSimp
import Mathlib.Tactic.Linarith
import Mathlib.Tactic.Ring

/-!
Fractions as rationals, and rounding to the nearest whole number.
-/
namespace ArrayBridge

/-- A whole number nearest to `q`, the even one of two. -/
structure NearestEven (q : ℚ) (k : ℤ) : Prop where
  near : |q - k| ≤ 1 / 2
  even : |q - k| = 1 / 2 → Even k

namespace NearestEven

variable {q : ℚ} {j k : ℤ}

theorem neg (h : NearestEven q k) : NearestEven (-q) (-k) := by
  have hsame : |-q - (-k : ℤ)| = |q - k| := by
    rw [Int.cast_neg, ← neg_sub', abs_neg]
  exact ⟨hsame.trans_le h.near, fun htie => (h.even (hsame.symm.trans htie)).neg⟩

theorem of_near (h : |q - k| < 1 / 2) : NearestEven q k := ⟨h.le, fun htie => absurd htie h.ne⟩

theorem le_nearest (hj : NearestEven q j) (hk : NearestEven q k) : k ≤ j := by
  refine le_of_not_gt fun hlt => ?_
  have hstep : (j : ℚ) + 1 ≤ k := by exact_mod_cast hlt
  have hbelow := (abs_le.mp hj.near).2
  have habove := (abs_le.mp hk.near).1
  have hjtie : q - j = 1 / 2 := by linarith
  have hktie : q - k = -(1 / 2) := by linarith
  have hjeven := hj.even (by rw [hjtie, abs_of_pos one_half_pos])
  have hkeven := hk.even (by rw [hktie, abs_neg, abs_of_pos one_half_pos])
  have hnext : (k : ℚ) = (j + 1 : ℤ) := by
    rw [Int.cast_add, Int.cast_one]
    linarith
  rw [Int.cast_injective hnext, Int.even_add_one] at hkeven
  exact hkeven hjeven

theorem unique (hj : NearestEven q j) (hk : NearestEven q k) : j = k :=
  le_antisymm (hk.le_nearest hj) (hj.le_nearest hk)

theorem le_of_le (h : NearestEven q k) (hj : (j : ℚ) ≤ q) : j ≤ k := by
  have hnear := (abs_le.mp h.near).2
  have hlt : (j : ℚ) < k + 1 := by linarith
  exact Int.lt_add_one_iff.mp (by exact_mod_cast hlt)

theorem le_of_ge (h : NearestEven q k) (hj : q ≤ (j : ℚ)) : k ≤ j := by
  have hnear := (abs_le.mp h.near).1
  have hlt : (k : ℚ) < j + 1 := by linarith
  exact Int.lt_add_one_iff.mp (by exact_mod_cast hlt)

theorem zero : NearestEven 0 0 := of_near (by norm_num)

/-- A number that is rounded to a multiple of ten is far from a half on the next scale. -/
theorem div_ten (h : NearestEven q (10 * k)) : NearestEven (q / 10) k := by
  have hnear := h.near
  have hsame : q / 10 - k = (q - (10 * k : ℤ)) / 10 := by
    push_cast
    ring
  refine of_near ?_
  rw [hsame, abs_div, abs_of_pos (by norm_num : (0 : ℚ) < 10)]
  linarith

end NearestEven

theorem roundDiv_error (num : Nat) {den : Nat} (hden : 0 < den) :
    |2 * (num : ℤ) - 2 * roundDiv num den * den| ≤ den ∧
      (|2 * (num : ℤ) - 2 * roundDiv num den * den| = den → Even (roundDiv num den : ℤ)) := by
  have hdiv : (num : ℤ) = (num / den : ℕ) * den + (num % den : ℕ) := by
    exact_mod_cast (Nat.div_add_mod' num den).symm
  have hmod := Nat.mod_lt num hden
  unfold roundDiv
  dsimp only
  split
  · next hup =>
      have herror : 2 * (num : ℤ) - 2 * (num / den + 1 : ℕ) * den = 2 * (num % den : ℕ) - 2 * den := by
        rw [hdiv]
        push_cast
        ring
      rw [herror, abs_of_nonpos (by omega), Int.even_iff]
      omega
  · next hdown =>
      have herror : 2 * (num : ℤ) - 2 * (num / den : ℕ) * den = 2 * (num % den : ℕ) := by
        rw [hdiv]
        ring
      rw [herror, abs_of_nonneg (by omega), Int.even_iff]
      omega

namespace Ratio

/-- The rational that a fraction stands for. -/
def toRat (r : Ratio) : ℚ := r.num / r.den

theorem round_nearest {r : Ratio} (h : 0 < r.den) : NearestEven r.toRat r.round := by
  obtain ⟨hle, heven⟩ := roundDiv_error r.num h
  have hden : (0 : ℚ) < 2 * r.den := mul_pos two_pos (by exact_mod_cast h)
  have hdiff : r.toRat - (r.round : ℤ) = (2 * (r.num : ℤ) - 2 * roundDiv r.num r.den * r.den : ℤ) / (2 * r.den) := by
    have hne : (r.den : ℚ) ≠ 0 := by exact_mod_cast h.ne'
    rw [toRat, round]
    push_cast
    field_simp
  have herror : |r.toRat - (r.round : ℤ)| =
      (|2 * (r.num : ℤ) - 2 * roundDiv r.num r.den * r.den| : ℤ) / (2 * r.den) := by
    rw [hdiff, abs_div, abs_of_pos hden, Int.cast_abs]
  have hhalf : (1 / 2 : ℚ) = (r.den : ℤ) / (2 * r.den) := by
    rw [Int.cast_natCast]
    field_simp
  refine ⟨?_, fun htie => heven ?_⟩
  · rw [herror, hhalf, div_le_div_iff_of_pos_right hden]
    exact_mod_cast hle
  · rw [herror, hhalf, div_left_inj' hden.ne'] at htie
    exact_mod_cast htie

theorem toRat_divPow (r : Ratio) {b : Nat} (hb : 0 < b) (e : ℤ) : (r.divPow b e).toRat = r.toRat / (b : ℚ) ^ e := by
  have hne : (b : ℚ) ≠ 0 := by exact_mod_cast hb.ne'
  rw [divPow]
  split
  · next he =>
      obtain ⟨k, rfl⟩ := Int.eq_ofNat_of_zero_le he
      rw [toRat, toRat, Nat.pow_eq, Int.toNat_natCast, Nat.cast_mul, Nat.cast_pow, zpow_natCast, div_div]
  · next he =>
      obtain ⟨k, hk⟩ := Int.eq_ofNat_of_zero_le (by omega : 0 ≤ -e)
      have hpow : (b : ℚ) ^ e = ((b : ℚ) ^ k)⁻¹ := by rw [← neg_neg e, hk, zpow_neg, zpow_natCast]
      rw [toRat, toRat, Nat.pow_eq, hk, Int.toNat_natCast, Nat.cast_mul, Nat.cast_pow, hpow, div_inv_eq_mul,
        mul_div_right_comm]

theorem den_divPow_pos {r : Ratio} (h : 0 < r.den) {b : Nat} (hb : 0 < b) (e : ℤ) : 0 < (r.divPow b e).den := by
  rw [divPow]
  split
  · exact Nat.mul_pos h (Nat.pow_pos hb)
  · exact h

theorem atLeastPow_iff {r : Ratio} (h : 0 < r.den) {b : Nat} (hb : 0 < b) (e : ℤ) :
    r.atLeastPow b e = true ↔ (b : ℚ) ^ e ≤ r.toRat := by
  have hden : (0 : ℚ) < (r.divPow b e).den := by exact_mod_cast den_divPow_pos h hb e
  have hpow : (0 : ℚ) < (b : ℚ) ^ e := zpow_pos (by exact_mod_cast hb) e
  rw [← one_le_div hpow, ← toRat_divPow r hb, toRat, one_le_div hden, Nat.cast_le, atLeastPow]
  exact decide_eq_true_iff

theorem toRat_mulPow (r : Ratio) {b : Nat} (hb : 0 < b) (e : ℤ) : (r.mulPow b e).toRat = r.toRat * (b : ℚ) ^ e := by
  rw [mulPow, toRat_divPow r hb, zpow_neg, div_inv_eq_mul]

theorem toRat_whole (n : Nat) : (⟨n, 1⟩ : Ratio).toRat = n := by rw [toRat, Nat.cast_one, div_one]

/-- The exponent of a quotient is the difference of the exponents of its parts, or one less. -/
theorem toRat_bounds {r : Ratio} {b : Nat} (hb : 0 < b) {i j : ℤ} (hnum : (b : ℚ) ^ i ≤ r.num ∧ (r.num : ℚ) < b ^ (i + 1))
    (hden : (b : ℚ) ^ j ≤ r.den ∧ (r.den : ℚ) < b ^ (j + 1)) {e : ℤ}
    (he : e = if r.atLeastPow b (i - j) then i - j else i - j - 1) :
    (b : ℚ) ^ e ≤ r.toRat ∧ r.toRat < b ^ (e + 1) := by
  have hbase : (b : ℚ) ≠ 0 := by exact_mod_cast hb.ne'
  have hpos (k : ℤ) : (0 : ℚ) < (b : ℚ) ^ k := zpow_pos (by exact_mod_cast hb) k
  have hdenRat : (0 : ℚ) < r.den := (hpos j).trans_le hden.1
  have hdenNat : 0 < r.den := by exact_mod_cast hdenRat
  have hhigh : r.toRat < (b : ℚ) ^ (i - j + 1) := by
    rw [toRat, div_lt_iff₀ hdenRat]
    calc (r.num : ℚ) < (b : ℚ) ^ (i - j + 1 + j) := by rw [show i - j + 1 + j = i + 1 by ring]; exact hnum.2
      _ = (b : ℚ) ^ (i - j + 1) * b ^ j := zpow_add₀ hbase _ _
      _ ≤ (b : ℚ) ^ (i - j + 1) * r.den := mul_le_mul_of_nonneg_left hden.1 (hpos _).le
  have hlow : (b : ℚ) ^ (i - j - 1) ≤ r.toRat := by
    rw [toRat, le_div_iff₀ hdenRat]
    calc (b : ℚ) ^ (i - j - 1) * r.den ≤ (b : ℚ) ^ (i - j - 1) * b ^ (j + 1) :=
          mul_le_mul_of_nonneg_left hden.2.le (hpos _).le
      _ = (b : ℚ) ^ (i - j - 1 + (j + 1)) := (zpow_add₀ hbase _ _).symm
      _ ≤ r.num := by rw [show i - j - 1 + (j + 1) = i by ring]; exact hnum.1
  split at he
  · next hpow =>
      rw [atLeastPow_iff hdenNat hb] at hpow
      exact he ▸ ⟨hpow, hhigh⟩
  · next hpow =>
      rw [atLeastPow_iff hdenNat hb, not_le] at hpow
      rw [he, sub_add_cancel]
      exact ⟨hlow, hpow⟩

theorem two_pow_log2_bounds {n : Nat} (h : 0 < n) : (2 : ℚ) ^ (n.log2 : ℤ) ≤ n ∧ (n : ℚ) < 2 ^ ((n.log2 : ℤ) + 1) := by
  have hexp : (n.log2 : ℤ) + 1 = (n.log2 + 1 : ℕ) := rfl
  rw [hexp, zpow_natCast, zpow_natCast]
  exact_mod_cast And.intro (Nat.log2_self_le h.ne') Nat.lt_log2_self

theorem log2_bounds {r : Ratio} (hnum : 0 < r.num) (hden : 0 < r.den) :
    (2 : ℚ) ^ r.log2 ≤ r.toRat ∧ r.toRat < 2 ^ (r.log2 + 1) := by
  have hbounds := toRat_bounds (r := r) (b := 2) two_pos (two_pow_log2_bounds hnum) (two_pow_log2_bounds hden)
    (e := r.log2) rfl
  rwa [Nat.cast_ofNat] at hbounds

end Ratio

/-- The logarithm of a number between two powers that follow on each other. -/
theorem log_eq_of_bounds {b : ℕ} (hb : 1 < b) {v : ℚ} {e : ℤ} (hlow : (b : ℚ) ^ e ≤ v) (hhigh : v < b ^ (e + 1)) :
    Int.log b v = e := by
  have hpos : 0 < v := (zpow_pos (by exact_mod_cast Nat.zero_lt_of_lt hb) e).trans_le hlow
  have hle := (Int.zpow_le_iff_le_log hb hpos).mp hlow
  have hlt := (Int.lt_zpow_iff_log_lt hb hpos).mp hhigh
  omega

end ArrayBridge
