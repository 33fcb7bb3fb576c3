import ArrayBridge.HostValue
import ArrayBridge.Proofs.Charset
import ArrayBridge.Proofs.Utf8

/-!
Host text as characters. A widened byte is the UTF-8 form of the character that the byte stands for, so converted
text is UTF-8 and nothing of it is lost.
-/
namespace ArrayBridge

theorem toNat_ofNat_toNat (b : UInt8) : (Char.ofNat b.toNat).toNat = b.toNat :=
  Utf8.toNat_ofNat (.inl (Nat.lt_trans b.toNat_lt (by decide)))

theorem toNat_latin1 (bytes : Bytes) : (latin1 bytes).map Char.toNat = bytes.map UInt8.toNat := by
  rw [latin1, List.map_map]
  exact List.map_congr_left fun b _ => toNat_ofNat_toNat b

theorem narrowUnit_ne_zero {n : Nat} (h : n ≠ 0) : narrowUnit n ≠ 0 := by
  rw [narrowUnit]
  split
  · intro hzero
    exact h ((Utf8.ofNat_eq_iff (by omega) 0).mp hzero)
  · decide

theorem latin1_latin1Bytes (cs : List Char) :
    latin1 (latin1Bytes cs) = cs.map fun c => if c.toNat ≤ 0xFF then c else '?' := by
  rw [latin1, latin1Bytes, List.map_map]
  refine List.map_congr_left fun c _ => ?_
  dsimp only [Function.comp_apply]
  rw [narrowUnit]
  by_cases h : c.toNat ≤ 0xFF
  · rw [if_pos h, if_pos h, Utf8.toNat_ofNat_of_lt (by omega), Char.ofNat_toNat]
  · rw [if_neg h, if_neg h]
    rfl

theorem narrowUnit_toNat_ne_zero_iff (c : Char) : narrowUnit c.toNat ≠ 0 ↔ c ≠ '\x00' := by
  refine ⟨?_, fun h => narrowUnit_ne_zero fun hzero => h ?_⟩
  · rintro h rfl
    exact h rfl
  · rw [← Char.ofNat_toNat c, hzero]

theorem untilNul_latin1Bytes (cs : List Char) :
    (latin1Bytes cs).untilNul = latin1Bytes (cs.takeWhile (· ≠ '\x00')) := by
  have hsame : (fun b : UInt8 => decide (b ≠ 0)) ∘ (fun c : Char => narrowUnit c.toNat) =
      fun c => decide (c ≠ '\x00') :=
    funext fun c => decide_eq_decide.mpr (narrowUnit_toNat_ne_zero_iff c)
  rw [latin1Bytes, latin1Bytes, Bytes.untilNul, List.takeWhile_map, hsame]

theorem latin1_latin1Bytes_of_single {cs : List Char} (h : ∀ c ∈ cs, c.toNat ≤ 0xFF) :
    latin1 (latin1Bytes cs) = cs := by
  rw [latin1_latin1Bytes, List.map_congr_left fun c hc => if_pos (h c hc), List.map_id']

namespace Charset

theorem encodeChar_ofNat_toNat (b : UInt8) : String.utf8EncodeChar (Char.ofNat b.toNat) = widen [b] := by
  have hall : ∀ n : Fin 256, String.utf8EncodeChar (Char.ofNat n.val) = widen [UInt8.ofFin n] := by decide +kernel
  exact hall b.toFin

theorem widen_cons (b : UInt8) (r : Bytes) : widen (b :: r) = widen [b] ++ widen r := by
  by_cases h : b < 0x80
  · rw [widen_low h, widen_low h]
    rfl
  · rw [widen_high h, widen_high h]
    rfl

theorem encode_latin1 (bytes : Bytes) : Utf8.encode (latin1 bytes) = widen bytes := by
  induction bytes with
  | nil => rfl
  | cons b r ih =>
      rw [widen_cons, ← ih, ← encodeChar_ofNat_toNat]
      rfl

/-- Host text before its first NUL becomes the UTF-8 form of the characters whose code points are its bytes, with
no NUL in it. It comes back byte for byte, converted or not. -/
theorem toUtf8_exact (bytes : Bytes) :
    (∃ cs, Utf8.encode cs = toUtf8 bytes ∧ Utf8.decode? (toUtf8 bytes) = some cs ∧
        cs.map Char.toNat = (bytes.takeWhile (· ≠ 0)).map UInt8.toNat) ∧
      0 ∉ toUtf8 bytes ∧ toSingleByte (toUtf8 bytes) = bytes.takeWhile (· ≠ 0) ∧
      ∀ charset : Charset, charset.toHost (charset.toEngine bytes) = bytes.takeWhile (· ≠ 0) := by
  have hform : Utf8.encode (latin1 bytes.untilNul) = toUtf8 bytes := encode_latin1 bytes.untilNul
  have hback : ∀ charset : Charset, charset.toHost (charset.toEngine bytes) = bytes.takeWhile (· ≠ 0) :=
    fun charset => toHost_toEngine charset bytes
  refine ⟨⟨latin1 bytes.untilNul, hform, Utf8.decode?_eq_some_iff.mpr hform, toNat_latin1 _⟩, ?_, hback .convert, hback⟩
  exact zero_notMem_widen (Bytes.zero_notMem_untilNul bytes)

-- A NUL ends the text, and each high byte takes two bytes.
example : toUtf8 [97, 252, 0, 98] = [97, 195, 188] ∧ Utf8.decode? [97, 195, 188] = some ['a', 'ü'] := by decide

end Charset

end ArrayBridge
