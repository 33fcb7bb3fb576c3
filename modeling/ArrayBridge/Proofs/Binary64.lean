import ArrayBridge.Binary64

/-!
NaN among the codes of doubles: no rounding makes one, and the widening of a single neither makes nor
loses one.
-/
namespace ArrayBridge

namespace Binary64

theorem code_ofCode (negative : Bool) {c : Nat} (h : c < signBit) : (ofCode negative c).code = c := by
  have hsign : signBit = 0x8000000000000000 := rfl
  have hsize : UInt64.size = 2 * signBit := rfl
  cases negative with
  | false =>
      simp only [code, ofCode, Bool.false_eq_true, if_false, Nat.add_zero]
      rw [UInt64.toNat_ofNat_of_lt' (by omega), Nat.mod_eq_of_lt h]
  | true =>
      simp only [code, ofCode, if_true]
      rw [UInt64.toNat_ofNat_of_lt' (by omega), Nat.add_mod_right, Nat.mod_eq_of_lt h]

theorem isNaN_ofCode (negative : Bool) {c : Nat} (h : c < signBit) :
    (ofCode negative c).isNaN = decide (infinityCode < c) := by
  rw [isNaN, code_ofCode negative h]

theorem codeOf_le (r : Ratio) : codeOf r ≤ infinityCode := by
  unfold codeOf
  split
  · exact Nat.zero_le infinityCode
  · exact Nat.min_le_left _ _

theorem isNaN_ofRatio (negative : Bool) (r : Ratio) : (ofRatio negative r).isNaN = false := by
  have hle := codeOf_le r
  have hinf : infinityCode < signBit := by decide
  rw [ofRatio, isNaN_ofCode negative (Nat.lt_of_le_of_lt hle hinf)]
  exact decide_eq_false (Nat.not_lt.mpr hle)

end Binary64

/-- Exactly the singles that are a NaN become one. -/
theorem Binary32.isNaN_toBinary64 (x : Binary32) : x.toBinary64.isNaN = x.isNaN := by
  unfold toBinary64
  by_cases hnan : x.isNaN
  · have hfraction : (x.code % exponentUnit) <<< 29 < 2 ^ 52 := by
      have hlt : x.code % exponentUnit < exponentUnit := Nat.mod_lt _ (by decide)
      have hunit : exponentUnit = 0x800000 := rfl
      rw [Nat.shiftLeft_eq]
      omega
    have hquiet : Binary64.quietBit < 2 ^ 52 := by decide
    have hpayload := Nat.or_lt_two_pow hquiet hfraction
    have hpos : Binary64.quietBit ≤ Binary64.quietBit ||| (x.code % exponentUnit) <<< 29 := Nat.left_le_or
    have hsign : Binary64.infinityCode + 2 ^ 52 = Binary64.signBit := rfl
    have hbit : 0 < Binary64.quietBit := by decide
    rw [if_pos hnan, hnan, Binary64.isNaN_ofCode _ (by omega)]
    exact decide_eq_true (by omega)
  rw [if_neg hnan, eq_false_of_ne_true hnan]
  split
  · rw [Binary64.infinity, Binary64.isNaN_ofCode _ (by decide)]
    exact decide_eq_false (Nat.lt_irrefl _)
  · exact Binary64.isNaN_ofRatio _ _

end ArrayBridge
