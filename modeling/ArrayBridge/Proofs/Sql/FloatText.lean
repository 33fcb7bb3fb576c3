import ArrayBridge.Proofs.Binary64.Word
import ArrayBridge.Proofs.Decimal.Notation
import ArrayBridge.Sql.Function
import Mathlib.Data.List.DropRight

/-!
Floats as text: fifteen significant digits, correctly rounded in both notations.
-/
namespace ArrayBridge

namespace Binary64

/-- The rational that a finite double stands for. -/
def toRat (x : Binary64) : ℚ := Decimal.signFactor x.negative * (x.mantissa * 2 ^ x.exponent)

end Binary64

namespace Sql

open Decimal

variable {ds fs : List Char}

/-- The digits of a fraction without its last zeros, or a zero if no other digit is there. -/
def keptFraction (fs : List Char) : List Char :=
  if fs.rdropWhile (· = '0') = [] then ['0'] else fs.rdropWhile (· = '0')

theorem trimmed_keptFraction (h : Digits fs) : Trimmed (keptFraction fs) := by
  rw [keptFraction]
  split
  · exact ⟨digits_zeros 1, List.cons_ne_nil _ _, fun _ => rfl⟩
  · next hne =>
      refine ⟨fun c hc => h c ((List.rdropWhile_prefix _ _).mem hc), hne, fun hlast => ?_⟩
      have hnot := List.rdropWhile_last_not _ _ hne
      rw [List.getLast?_eq_some_getLast hne, Option.some.injEq] at hlast
      exact absurd (decide_eq_true hlast) hnot

theorem pointedValue_keptFraction (whole fs : List Char) (e : ℤ) :
    pointedValue whole (keptFraction fs) e = pointedValue whole fs e := by
  have hzeros : fs.rtakeWhile (· = '0') = zeros (fs.rtakeWhile (· = '0')).length :=
    List.eq_replicate_of_mem fun c hc => of_decide_eq_true (List.mem_rtakeWhile_imp (p := (· = '0')) hc)
  have hkept : pointedValue whole fs e = pointedValue whole (fs.rdropWhile (· = '0')) e := by
    rw [← pointedValue_append_zeros whole (fs.rdropWhile _) (fs.rtakeWhile (· = '0')).length, ← hzeros,
      List.rdropWhile_append_rtakeWhile]
  rw [hkept, keptFraction]
  split
  · next hnil =>
      rw [hnil]
      exact pointedValue_append_zeros whole [] 1 e
  · rfl

/-- The point keeps the zeros before it. -/
theorem rdropWhile_pointed (ds fs : List Char) :
    (ds ++ '.' :: fs).rdropWhile (· = '0') = ds ++ '.' :: fs.rdropWhile (· = '0') := by
  induction fs using List.reverseRecOn with
  | nil => exact List.rdropWhile_concat_neg _ _ _ (by decide)
  | append_singleton fs c ih =>
      rw [← List.cons_append, ← List.append_assoc, List.rdropWhile_concat, List.rdropWhile_concat]
      split
      · exact ih
      · rw [List.append_assoc, List.cons_append]

theorem withFraction_pointed (ds : List Char) (h : Digits fs) :
    withFraction (ds ++ '.' :: fs) = ds ++ '.' :: keptFraction fs := by
  have hpoint : '.' ∈ ds ++ '.' :: fs := List.mem_append_right _ List.mem_cons_self
  have hkept : ((ds ++ '.' :: fs).reverse.dropWhile (· = '0')).reverse = ds ++ '.' :: fs.rdropWhile (· = '0') :=
    rdropWhile_pointed ds fs
  rw [withFraction, if_pos hpoint, hkept, keptFraction]
  by_cases hnil : fs.rdropWhile (· = '0') = []
  · rw [hnil, if_pos rfl, if_pos List.getLast?_concat, List.append_assoc]
    rfl
  · have hlast : (ds ++ '.' :: fs.rdropWhile (· = '0')).getLast? ≠ some '.' := by
      rw [List.getLast?_append_of_ne_nil _ (List.cons_ne_nil _ _), List.getLast?_cons_of_ne_nil hnil]
      exact fun hpoint => h.notMem rfl ((List.rdropWhile_prefix _ _).mem (List.mem_of_getLast? hpoint))
    rw [if_neg hlast, if_neg hnil]

theorem withFraction_whole (h : '.' ∉ ds) : withFraction ds = ds ++ ['.', '0'] := by
  rw [withFraction, if_neg h, if_pos List.getLast?_concat, List.append_assoc]
  rfl

theorem withSign_eq (x : Binary64) (ds : List Char) : withSign x ds = minus x.negative ++ ds := by
  rw [withSign, minus]
  cases x.negative <;> rfl

/-- A number with `n` digits behind its point is written with the same digits before the point and the same value. -/
theorem withFraction_exact (x : Binary64) (n c : ℕ) :
    ∃ whole fraction, withFraction (withSign x (pointed n c)) = minus x.negative ++ (whole ++ '.' :: fraction) ∧
      Digits whole ∧ whole.length + n = max (n + 1) (digits c).length ∧ Trimmed fraction ∧
      ∀ e : ℤ, pointedValue whole fraction e = c * 10 ^ (e - n) := by
  obtain ⟨whole, fs, hp, hpointed⟩ := exists_pointed n c
  refine ⟨whole, keptFraction fs, ?_, hp.whole_digits, hp.whole_length, trimmed_keptFraction hp.fraction_digits, ?_⟩
  · rw [withSign_eq, hpointed]
    split
    · next hnil =>
        have hpoint : '.' ∉ minus x.negative ++ whole := fun hmem =>
          (List.mem_append.mp hmem).elim (by cases x.negative <;> decide) (hp.whole_digits.notMem rfl)
        rw [withFraction_whole hpoint, hnil, List.append_assoc]
        rfl
    · rw [← List.append_assoc, withFraction_pointed _ hp.fraction_digits, List.append_assoc]
  · intro e
    rw [pointedValue_keptFraction, pointedValue, hp.value, hp.fraction_length]

theorem exponentText_exact (e : ℤ) :
    ∃ ds, exponentText e = 'e' :: (if decide (e < 0) then '-' else '+') :: ds ∧ Digits ds ∧ 2 ≤ ds.length ∧
      (if decide (e < 0) then -(Nat.ofDigitChars 10 ds 0 : ℤ) else Nat.ofDigitChars 10 ds 0) = e := by
  refine ⟨zeros (2 - (digits e.natAbs).length) ++ digits e.natAbs, ?_, (digits_zeros _).append (digits_digits _), ?_, ?_⟩
  · simp only [exponentText, decide_eq_true_eq]
  · rw [List.length_append, zeros, List.length_replicate]
    omega
  · simp only [ofDigitChars_zeros_append, ofDigitChars_digits, decide_eq_true_eq]
    split <;> omega

theorem scaled_eq (c : ℕ) (e : ℤ) : scaled 15 (c, e) = c * 10 ^ (e - 14) := by
  rw [scaled]
  norm_num

theorem exists_scientific (x : Binary64) {c : ℕ} (hc : c < 10 ^ 15) (e : ℤ) :
    ∃ n : Numeral, Scientific n (withFraction (withSign x (pointed 14 c)) ++ exponentText e) ∧
      n.negative = x.negative ∧ n.exponent = e ∧ pointedValue n.whole n.fraction n.exponent = scaled 15 (c, e) := by
  obtain ⟨whole, fraction, htext, hwhole, hlength, hfraction, hvalue⟩ := withFraction_exact x 14 c
  obtain ⟨ds, hexponent, hds, htwo, he⟩ := exponentText_exact e
  have hdigits : (digits c).length ≤ 15 := (length_digits_le_iff (by decide)).mpr hc
  obtain ⟨d, rfl⟩ := List.length_eq_one_iff.mp (by omega : whole.length = 1)
  rw [htext, hexponent, List.append_assoc]
  refine ⟨_, .intro x.negative (decide (e < 0)) (hwhole d List.mem_cons_self) hfraction hds htwo, rfl, he, ?_⟩
  rw [he, hvalue, scaled_eq]
  norm_num

theorem exists_plain {x : Binary64} {s : ℕ × ℤ} (hnumber : x.isNaN = false) (h : Rounded 15 x.ratio s) (he : s.2 < 15) :
    ∃ n : Numeral, Plain n (withFraction (fixed (14 - s.2).toNat x)) ∧ n.negative = x.negative ∧
      pointedValue n.whole n.fraction n.exponent = scaled 15 s := by
  have hplaces : places (14 - s.2).toNat x.ratio = s.1 := h.places_eq x.den_ratio_pos (by omega)
  obtain ⟨whole, fraction, htext, hwhole, hlength, hfraction, hvalue⟩ := withFraction_exact x (14 - s.2).toNat s.1
  have hne : whole ≠ [] := List.length_pos_iff.mp (by omega)
  have hfixed : fixed (14 - s.2).toNat x = withSign x (pointed (14 - s.2).toNat s.1) := by
    rw [fixed, hnumber, hplaces]
    rfl
  rw [hfixed, htext]
  refine ⟨_, .intro x.negative hwhole hne hfraction, rfl, ?_⟩
  rw [hvalue, scaled_eq, Int.toNat_of_nonneg (by omega), zero_sub, neg_sub]

theorem floatText_eq {x : Binary64} (hfinite : x.code < Binary64.infinityCode) :
    floatText x =
      if (significant 15 x.ratio).2 < -4 ∨ 15 ≤ (significant 15 x.ratio).2 then
        withFraction (withSign x (pointed 14 (significant 15 x.ratio).1)) ++ exponentText (significant 15 x.ratio).2
      else withFraction (fixed (14 - (significant 15 x.ratio).2).toNat x) := by
  have hinfinite : x.isInfinite = false := decide_eq_false hfinite.ne
  have hnumber : x.isNaN = false := decide_eq_false hfinite.not_gt
  rw [floatText, hinfinite, scientific, hnumber]
  rfl

/-- A numeral with the sign of a double and the value of its rounded magnitude. -/
theorem significant_of_rounded {x : Binary64} {s : ℕ × ℤ} {n : Numeral} (h : Rounded 15 x.ratio s)
    (hsign : n.negative = x.negative) (hvalue : pointedValue n.whole n.fraction n.exponent = scaled 15 s) :
    Significant 15 x.toRat n.toRat ∧ Int.log 10 |n.toRat| = s.2 := by
  have hscaled : 0 ≤ scaled 15 s := mul_nonneg s.1.cast_nonneg (ten_zpow_pos _).le
  rw [Numeral.toRat, hsign, hvalue, abs_signFactor_mul _ hscaled, Binary64.toRat, ← x.toRat_ratio]
  exact ⟨significant_signFactor_mul h.significant _, h.log_eq⟩

/-- A finite double is written as its value rounded to fifteen significant digits, a half going to the even neighbour.
It is written with an exponent where that of the first digit is below -4 or from 15 on, and else with as many digits
behind the point as are left of the fifteen, without needless zeros. -/
theorem floatText_exact (x : Binary64) (hfinite : x.code < Binary64.infinityCode) :
    ∃ (n : Numeral) (e : ℤ), n.Spells (floatText x) ∧ n.negative = x.negative ∧ Significant 15 x.toRat n.toRat ∧
      Int.log 10 |n.toRat| = e ∧ (Scientific n (floatText x) ↔ e < -4 ∨ 15 ≤ e) ∧
      (Plain n (floatText x) ↔ -4 ≤ e ∧ e < 15) ∧ (Scientific n (floatText x) → n.exponent = e) ∧
      (Plain n (floatText x) → ∃ width : ℕ, width = 14 - e ∧ floatText x = withFraction (fixed width x)) := by
  have hround : Rounded 15 x.ratio (significant 15 x.ratio) := significant_rounded (by decide) x.den_ratio_pos
  have htext := floatText_eq hfinite
  have hnumber : x.isNaN = false := decide_eq_false hfinite.not_gt
  generalize significant 15 x.ratio = s at hround htext
  split at htext
  · next he =>
      obtain ⟨n, hform, hsign, hexponent, hvalue⟩ := exists_scientific x hround.coefficient_lt s.2
      obtain ⟨hsignificant, hlog⟩ := significant_of_rounded hround hsign hvalue
      rw [← htext] at hform
      have hother : ¬Plain n (floatText x) := fun hplain => hplain.notMem hform.mem
      refine ⟨n, s.2, hform.spells, hsign, hsignificant, hlog, iff_of_true hform he, iff_of_false hother ?_,
        fun _ => hexponent, fun hplain => absurd hplain hother⟩
      omega
  · next he =>
      obtain ⟨n, hform, hsign, hvalue⟩ := exists_plain hnumber hround (by omega)
      obtain ⟨hsignificant, hlog⟩ := significant_of_rounded hround hsign hvalue
      rw [← htext] at hform
      have hother : ¬Scientific n (floatText x) := fun hscientific => hform.notMem hscientific.mem
      refine ⟨n, s.2, hform.spells, hsign, hsignificant, hlog, iff_of_false hother he, iff_of_true hform ?_,
        fun hscientific => absurd hscientific hother, fun _ => ⟨(14 - s.2).toNat, ?_, htext⟩⟩
      · omega
      · omega

/-- Rounding that carries into one more digit, where the text is plain and where it gets its exponent from that. -/
theorem floatText_exact_carry :
    floatText ⟨0x4023FFFFFFFFFFFF⟩ = "10.0".toList ∧
      Significant 15 (Binary64.toRat ⟨0x4023FFFFFFFFFFFF⟩) (Numeral.toRat ⟨false, ['1', '0'], ['0'], 0⟩) ∧
      floatText ⟨0x430C6BF52633FFFF⟩ = "1.0e+15".toList ∧
      Significant 15 (Binary64.toRat ⟨0x430C6BF52633FFFF⟩) (Numeral.toRat ⟨false, ['1'], ['0'], 15⟩) := by
  have hten : floatText ⟨0x4023FFFFFFFFFFFF⟩ = "10.0".toList := by decide +kernel
  have hpower : floatText ⟨0x430C6BF52633FFFF⟩ = "1.0e+15".toList := by decide +kernel
  obtain ⟨n, -, hn, -, hnSignificant, -⟩ := floatText_exact ⟨0x4023FFFFFFFFFFFF⟩ (by decide)
  obtain ⟨m, -, hm, -, hmSignificant, -⟩ := floatText_exact ⟨0x430C6BF52633FFFF⟩ (by decide)
  rw [hten] at hn
  rw [hpower] at hm
  have hnRead : Numeral.read? "10.0".toList = some (⟨false, ['1', '0'], ['0'], 0⟩, []) := by decide +kernel
  have hmRead : Numeral.read? "1.0e+15".toList = some (⟨false, ['1'], ['0'], 15⟩, []) := by decide +kernel
  cases hnRead.symm.trans hn.read?_eq
  cases hmRead.symm.trans hm.read?_eq
  exact ⟨hten, hnSignificant, hpower, hmSignificant⟩

end Sql

end ArrayBridge
