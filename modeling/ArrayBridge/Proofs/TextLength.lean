import ArrayBridge.Proofs.SingleByte

/-!
The length of converted text, measured before it is written. The counting pass goes by positions and the reader
takes the bytes apart, but both go the same way: a step of the one is a step of the other, also where the last one
leads beyond the end.
-/
namespace ArrayBridge.Charset

variable {bs : Bytes} {i : Nat}

theorem width_low {b : UInt8} (h : b < 0x80) : width b = 1 := if_pos h

theorem width_high {b : UInt8} (h : ¬b < 0x80) : width b = 2 := if_neg h

/-- What the reader gives from a position on is one byte and what it gives from the next position on. -/
theorem length_fold_drop (h : i < bs.length) :
    (fold (bs.drop i)).length = (fold (bs.drop (i + width bs[i]))).length + 1 := by
  rw [List.drop_eq_getElem_cons h]
  by_cases hlow : bs[i] < 0x80
  · rw [fold_low hlow, width_low hlow, List.length_cons]
  · have hnext : bs.drop (i + 2) = (bs.drop (i + 1)).tail := List.tail_drop.symm
    rw [width_high hlow, hnext]
    -- A pair may lack its second byte. The step then goes beyond the end, where nothing is left to drop.
    cases bs.drop (i + 1) with
    | nil =>
        rw [fold_last hlow]
        rfl
    | cons c r =>
        rw [fold_high hlow, List.length_cons]
        rfl

/-- The invariant of the count: what is counted so far and what the reader has yet to give. -/
theorem countSteps_eq (bs : Bytes) (i count : Nat) : countSteps bs i count = count + (fold (bs.drop i)).length := by
  fun_induction countSteps bs i count with
  | case1 i count h ih => rw [ih, length_fold_drop h, Nat.add_assoc, Nat.add_comm 1]
  | case2 i count h =>
      rw [List.drop_eq_nil_of_le (Nat.le_of_not_lt h)]
      rfl

theorem foldl_width (bs : Bytes) (count : Nat) :
    bs.foldl (fun count b => count + width b) count = count + (widen bs).length := by
  induction bs generalizing count with
  | nil => rfl
  | cons b r ih =>
      rw [List.foldl_cons, ih, Nat.add_assoc]
      by_cases h : b < 0x80
      · rw [widen_low h, width_low h, List.length_cons, Nat.add_comm 1]
      · rw [widen_high h, width_high h, List.length_cons, List.length_cons, Nat.add_comm 2]

theorem length_fold_le (bs : Bytes) : (fold bs).length ≤ bs.length := by
  fun_induction fold bs with
  | case1 => exact Nat.le_refl 0
  | case2 b _ => exact Nat.le_refl 1
  | case3 b _ => exact Nat.le_refl 1
  | case4 b c r _ ih => exact Nat.succ_le_succ ih
  | case5 b c r _ ih => exact Nat.succ_le_succ (Nat.le_succ_of_le ih)

theorem length_widen_le (bs : Bytes) : (widen bs).length ≤ 2 * bs.length := by
  induction bs with
  | nil => exact Nat.le_refl 0
  | cons b r ih =>
      rw [List.length_cons]
      by_cases h : b < 0x80
      · rw [widen_low h, List.length_cons]
        omega
      · rw [widen_high h, List.length_cons, List.length_cons]
        omega

/-- Both passes come to the same length on any bytes, whether they are measured with what stands behind the first NUL
or, as the converting pass does, without it. So the room set aside is just what is written, and it can be counted
wherever twice the length of the text can. -/
theorem lengths_exact (bs : Bytes) :
    singleByteLength bs = (toSingleByte bs).length ∧ utf8Length bs = (toUtf8 bs).length ∧
      singleByteLength bs.untilNul = (toSingleByte bs).length ∧ utf8Length bs.untilNul = (toUtf8 bs).length ∧
      (toSingleByte bs).length ≤ bs.length ∧ (toUtf8 bs).length ≤ 2 * bs.length := by
  have hread : singleByteLength bs = (toSingleByte bs).length := by
    rw [singleByteLength, countSteps_eq, Nat.zero_add, List.drop_zero, toSingleByte]
  have hwritten : utf8Length bs = (toUtf8 bs).length := by
    rw [utf8Length, foldl_width, Nat.zero_add, toUtf8]
  have hcut : bs.untilNul.length ≤ bs.length := (List.takeWhile_prefix _).length_le
  refine ⟨hread, hwritten, ?_, ?_, ?_, ?_⟩
  · rw [← hread, singleByteLength, singleByteLength, Bytes.untilNul_untilNul]
  · rw [← hwritten, utf8Length, utf8Length, Bytes.untilNul_untilNul]
  · exact (length_fold_le bs.untilNul).trans hcut
  · exact (length_widen_le bs.untilNul).trans (Nat.mul_le_mul_left 2 hcut)

-- The lone lead byte at the end is a step of its own, and so is a continuation byte at the start.
example : toSingleByte [97, 0xC3, 0, 98] = [97, 0xC0] ∧ singleByteLength [97, 0xC3, 0, 98] = 2 := by decide +kernel

end ArrayBridge.Charset
