import ArrayBridge.Decimal.Rounded
import ArrayBridge.Proofs.Decimal.Numeral
import Mathlib.Algebra.Ring.Nat

/-!
Whole numbers as their digits, and where a point stands among them.
-/
namespace ArrayBridge.Decimal

variable {n : Nat} {ds fs : List Char}

theorem Digits.append (hds : Digits ds) (hfs : Digits fs) : Digits (ds ++ fs) := fun c hc =>
  (List.mem_append.mp hc).elim (hds c) (hfs c)

theorem digits_zeros (n : Nat) : Digits (zeros n) := fun c hc => by
  rw [List.eq_of_mem_replicate hc]
  rfl

theorem digits_digits (n : Nat) : Digits (digits n) := fun _ hc =>
  Nat.isDigit_of_mem_toDigits (by decide) (by decide) hc

theorem ofDigitChars_digits (n : Nat) : Nat.ofDigitChars 10 (digits n) 0 = n := Nat.ofDigitChars_ten_toDigits

theorem ofDigitChars_zeros_append (n : Nat) (ds : List Char) :
    Nat.ofDigitChars 10 (zeros n ++ ds) 0 = Nat.ofDigitChars 10 ds 0 := by
  rw [Nat.ofDigitChars_append, zeros, Nat.ofDigitChars_replicate_zero, Nat.mul_zero]

theorem ofDigitChars_append_zeros (ds : List Char) (n : Nat) :
    Nat.ofDigitChars 10 (ds ++ zeros n) 0 = Nat.ofDigitChars 10 ds 0 * 10 ^ n := by
  rw [Nat.ofDigitChars_append, zeros, Nat.ofDigitChars_replicate_zero, Nat.mul_comm]

theorem length_digits_le_iff {k : Nat} (hk : 0 < k) : (digits n).length ≤ k ↔ n < 10 ^ k :=
  Nat.length_toDigits_le_iff (by decide) hk

theorem length_digits_pos (n : Nat) : 0 < (digits n).length := Nat.length_toDigits_pos

theorem lt_pow_length_digits (n : Nat) : n < 10 ^ (digits n).length :=
  (length_digits_le_iff (length_digits_pos n)).mp (Nat.le_refl _)

theorem pow_length_digits_le (h : 0 < n) : 10 ^ ((digits n).length - 1) ≤ n := by
  have hpos := length_digits_pos n
  rcases Nat.eq_zero_or_pos ((digits n).length - 1) with hone | hmore
  · rw [hone]
    exact h
  · refine Nat.not_lt.mp fun hlt => ?_
    have hle := (length_digits_le_iff hmore).mpr hlt
    omega

/-- The digits of a number before and behind its point, `n` of them behind it and one at least before it. -/
structure Pointed (n c : Nat) (whole fraction : List Char) : Prop where
  whole_digits : Digits whole
  fraction_digits : Digits fraction
  whole_length : whole.length + n = max (n + 1) (digits c).length
  fraction_length : fraction.length = n
  value : Nat.ofDigitChars 10 (whole ++ fraction) 0 = c

theorem withPoint_digits (n c : Nat) : Pointed n c (withPoint n (digits c)).1 (withPoint n (digits c)).2 := by
  have hdigits : Digits (zeros (n + 1 - (digits c).length) ++ digits c) := (digits_zeros _).append (digits_digits c)
  have hlength : (zeros (n + 1 - (digits c).length) ++ digits c).length = max (n + 1) (digits c).length := by
    rw [List.length_append, zeros, List.length_replicate]
    omega
  have hvalue : Nat.ofDigitChars 10 (zeros (n + 1 - (digits c).length) ++ digits c) 0 = c := by
    rw [ofDigitChars_zeros_append, ofDigitChars_digits]
  rw [withPoint, List.splitAt_eq]
  generalize zeros (n + 1 - (digits c).length) ++ digits c = full at hdigits hlength hvalue ⊢
  refine ⟨fun d hd => hdigits d (List.mem_of_mem_take hd), fun d hd => hdigits d (List.mem_of_mem_drop hd), ?_, ?_, ?_⟩
  · rw [List.length_take]
    omega
  · rw [List.length_drop]
    omega
  · rw [List.take_append_drop, hvalue]

/-- Without digits behind the point there is none. -/
theorem exists_pointed (n c : Nat) :
    ∃ whole fraction, Pointed n c whole fraction ∧
      pointed n c = if fraction = [] then whole else whole ++ '.' :: fraction :=
  ⟨_, _, withPoint_digits n c, rfl⟩

end ArrayBridge.Decimal
