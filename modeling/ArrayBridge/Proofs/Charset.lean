import ArrayBridge.Proofs.Bytes
import ArrayBridge.Charset

/-!
Text that crosses to the engine and back.
-/
namespace ArrayBridge.Charset

/-- The two bytes of a high byte: neither is zero, the first is high, and joined they are the byte again. -/
structure Splits (b : UInt8) : Prop where
  first_high : ¬(0xC0 : UInt8) + (b >>> 6) < 0x80
  first_ne : (0xC0 : UInt8) + (b >>> 6) ≠ 0
  second_ne : (0x80 : UInt8) + (b &&& 0x3F) ≠ 0
  joined : (((0xC0 : UInt8) + (b >>> 6)) <<< 6) ||| (((0x80 : UInt8) + (b &&& 0x3F)) &&& 0x3F) = b

instance (b : UInt8) : Decidable (Splits b) :=
  decidable_of_iff (_ ∧ _ ∧ _ ∧ _)
    ⟨fun ⟨high, first, second, joined⟩ => ⟨high, first, second, joined⟩,
      fun ⟨high, first, second, joined⟩ => ⟨high, first, second, joined⟩⟩

theorem splits {b : UInt8} (h : ¬b < 0x80) : Splits b := by
  have hall : ∀ n : Fin 256, ¬UInt8.ofFin n < 0x80 → Splits (UInt8.ofFin n) := by decide +kernel
  exact hall b.toFin h

theorem widen_low {b : UInt8} (h : b < 0x80) (r : Bytes) : widen (b :: r) = b :: widen r := if_pos h

theorem widen_high {b : UInt8} (h : ¬b < 0x80) (r : Bytes) :
    widen (b :: r) = ((0xC0 : UInt8) + (b >>> 6)) :: ((0x80 : UInt8) + (b &&& 0x3F)) :: widen r := if_neg h

theorem fold_low {b : UInt8} (h : b < 0x80) (r : Bytes) : fold (b :: r) = b :: fold r := by
  cases r with
  | nil => exact if_pos h
  | cons c r => exact if_pos h

/-- The byte that a high byte and the one behind it are joined to. -/
def joined (b c : UInt8) : UInt8 := (b <<< 6) ||| (c &&& 0x3F)

theorem fold_high {b : UInt8} (h : ¬b < 0x80) (c : UInt8) (r : Bytes) :
    fold (b :: c :: r) = joined b c :: fold r := if_neg h

theorem fold_widen (bs : Bytes) : fold (widen bs) = bs := by
  induction bs with
  | nil => rfl
  | cons b r ih =>
      by_cases h : b < 0x80
      · rw [widen_low h, fold_low h, ih]
      · rw [widen_high h, fold_high (splits h).first_high, joined, (splits h).joined, ih]

theorem zero_notMem_widen {bs : Bytes} (h : 0 ∉ bs) : 0 ∉ widen bs := by
  induction bs with
  | nil => exact h
  | cons b r ih =>
      have hr := ih (List.not_mem_of_not_mem_cons h)
      by_cases hlow : b < 0x80
      · rw [widen_low hlow]
        exact List.not_mem_cons_of_ne_of_not_mem (List.ne_of_not_mem_cons h) hr
      · rw [widen_high hlow]
        refine List.not_mem_cons_of_ne_of_not_mem (splits hlow).first_ne.symm ?_
        exact List.not_mem_cons_of_ne_of_not_mem (splits hlow).second_ne.symm hr

/-- Host text comes back up to its first NUL, converted or not. -/
theorem toHost_toEngine (charset : Charset) (bytes : Bytes) :
    charset.toHost (charset.toEngine bytes) = bytes.untilNul := by
  cases charset with
  | convert =>
      rw [toEngine, toUtf8, toHost, toSingleByte,
        Bytes.untilNul_eq_self (zero_notMem_widen (Bytes.zero_notMem_untilNul bytes)), fold_widen]
  | identity => exact Bytes.untilNul_untilNul bytes

end ArrayBridge.Charset
