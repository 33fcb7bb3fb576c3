import ArrayBridge.Proofs.Utf8
import Mathlib.Data.Nat.Find

/-!
Where the characters of a text begin and end, found from single bytes. In UTF-8 text the positions that the test of a
byte takes for borders are the lengths of the parts of whole characters, and going back byte by byte leads to the
last of them.
-/
namespace ArrayBridge.Utf8

/-- A byte that goes on with a character. -/
def Continues (b : UInt8) : Prop := 0x80 ≤ b ∧ b < 0xC0

instance (b : UInt8) : Decidable (Continues b) := inferInstanceAs (Decidable (_ ∧ _))

/-- An end of the text, or the position of a byte that does not go on with a character. -/
def Border (bs : Bytes) (i : Nat) : Prop := i = 0 ∨ i = bs.length ∨ ∃ b ∈ bs[i]?, ¬Continues b

instance (bs : Bytes) (i : Nat) : Decidable (Border bs i) := inferInstanceAs (Decidable (_ ∨ _ ∨ _))

/-- The last border up to a position, one byte back at a time. A step back from the front would be a fault, `none`. -/
def backFrom (bs : Bytes) : Nat → Option Nat
  | 0 => if Border bs 0 then some 0 else none
  | i + 1 => if Border bs (i + 1) then some (i + 1) else backFrom bs i

variable {bs : Bytes} {cs ds : List Char} {n : Nat}

theorem border_zero (bs : Bytes) : Border bs 0 := .inl rfl

theorem backFrom_eq (bs : Bytes) (i : Nat) : backFrom bs i = some (Nat.findGreatest (Border bs) i) := by
  induction i with
  | zero => exact if_pos (border_zero bs)
  | succ i ih =>
      rw [backFrom, ih, Nat.findGreatest_succ]
      split <;> rfl

/-- Going back stays within the text, since the front is a border, and passes over none. -/
theorem backFrom_eq_some_iff {i : Nat} :
    backFrom bs i = some n ↔ n ≤ i ∧ Border bs n ∧ ∀ m ≤ i, Border bs m → m ≤ n := by
  rw [backFrom_eq, Option.some.injEq]
  have hle : Nat.findGreatest (Border bs) i ≤ i := Nat.findGreatest_le i
  have hborder : Border bs (Nat.findGreatest (Border bs) i) := Nat.findGreatest_spec (Nat.zero_le i) (border_zero bs)
  constructor
  · rintro rfl
    exact ⟨hle, hborder, fun m hm h => Nat.le_findGreatest hm h⟩
  · rintro ⟨hn, h, hlast⟩
    exact Nat.le_antisymm (hlast _ hle hborder) (Nat.le_findGreatest hn h)

/-! The bytes of a character. -/

theorem continues_ofNat_iff (h : n < 256) : Continues (UInt8.ofNat n) ↔ 0x80 ≤ n ∧ n < 0xC0 := by
  rw [Continues, UInt8.le_iff_toNat_le, UInt8.lt_iff_toNat_lt, toNat_ofNat_of_lt h]
  rfl

theorem continues_tail (n v : Nat) : ∀ b ∈ tail n v, Continues b := by
  induction n with
  | zero => nofun
  | succ n ih =>
      rintro b (_ | ⟨_, hb⟩)
      · rw [continues_ofNat_iff (by omega)]
        omega
      · exact ih b hb

/-- Only the first byte of a character does not go on with one. -/
theorem encodeChar_eq_cons (c : Char) :
    ∃ b r, String.utf8EncodeChar c = b :: r ∧ ¬Continues b ∧ ∀ x ∈ r, Continues x := by
  have hform := encodeChar_eq c
  have hfirst : ∀ v, v < 256 → (v < 0x80 ∨ 0xC0 ≤ v) → ¬Continues (UInt8.ofNat v) := fun v hv h => by
    rw [continues_ofNat_iff hv]
    omega
  split at hform
  · exact ⟨_, [], hform, hfirst _ (by omega) (by omega), nofun⟩
  split at hform
  · exact ⟨_, _, hform, hfirst _ (by omega) (by omega), continues_tail 1 _⟩
  split at hform
  · exact ⟨_, _, hform, hfirst _ (by omega) (by omega), continues_tail 2 _⟩
  · exact ⟨_, _, hform, hfirst _ (by omega) (by omega), continues_tail 3 _⟩

theorem size_le_of_border {c : Char} (h : Border (String.utf8EncodeChar c ++ bs) n) (hpos : 0 < n) :
    c.utf8Size ≤ n := by
  by_contra hlt
  have hin : n < (String.utf8EncodeChar c).length := by
    rw [String.length_utf8EncodeChar]
    omega
  rcases h with hzero | hlen | ⟨x, hx, hfirst⟩
  · omega
  · rw [List.length_append] at hlen
    omega
  · obtain ⟨b, r, hform, -, hrest⟩ := encodeChar_eq_cons c
    obtain ⟨k, rfl⟩ := Nat.exists_eq_succ_of_ne_zero (Nat.ne_of_gt hpos)
    rw [List.getElem?_append_left hin, hform, List.getElem?_cons_succ] at hx
    exact hfirst (hrest x (List.mem_of_getElem? hx))

theorem border_of_append {a : Bytes} (h : Border (a ++ bs) (a.length + n)) : Border bs n := by
  rcases h with hzero | hlen | ⟨b, hb, hfirst⟩
  · exact .inl (by omega)
  · rw [List.length_append] at hlen
    exact .inr (.inl (by omega))
  · rw [List.getElem?_append_right (Nat.le_add_right _ n), Nat.add_sub_cancel_left] at hb
    exact .inr (.inr ⟨b, hb, hfirst⟩)

/-! The borders of a text. -/

theorem encode_append (cs ds : List Char) : encode (cs ++ ds) = encode cs ++ encode ds := List.flatMap_append

theorem encode_isPrefix (h : ds <+: cs) : encode ds <+: encode cs := by
  obtain ⟨es, rfl⟩ := h
  rw [encode_append]
  exact List.prefix_append _ _

theorem border_of_isPrefix (h : ds <+: cs) : Border (encode cs) (encode ds).length := by
  obtain ⟨es, rfl⟩ := h
  rw [encode_append]
  cases es with
  | nil => exact .inr (.inl (congrArg List.length (List.append_nil _).symm))
  | cons e es =>
      obtain ⟨b, r, hform, hfirst, -⟩ := encodeChar_eq_cons e
      refine .inr (.inr ⟨b, ?_, hfirst⟩)
      rw [List.getElem?_append_right (Nat.le_refl _), Nat.sub_self, encode_cons, hform]
      rfl

theorem exists_isPrefix_of_border (h : Border (encode cs) n) : ∃ ds, ds <+: cs ∧ (encode ds).length = n := by
  induction cs generalizing n with
  | nil =>
      rcases h with rfl | rfl | ⟨b, hb, -⟩
      · exact ⟨[], List.nil_prefix, rfl⟩
      · exact ⟨[], List.nil_prefix, rfl⟩
      · cases hb
  | cons c cs ih =>
      rcases Nat.eq_zero_or_pos n with rfl | hpos
      · exact ⟨[], List.nil_prefix, rfl⟩
      · obtain ⟨m, rfl⟩ := Nat.exists_eq_add_of_le (size_le_of_border h hpos)
        rw [encode_cons, ← String.length_utf8EncodeChar] at h
        obtain ⟨ds, hds, rfl⟩ := ih (border_of_append h)
        refine ⟨c :: ds, (List.prefix_cons_inj c).mpr hds, ?_⟩
        rw [encode_cons, List.length_append, String.length_utf8EncodeChar]

/-- The test of single bytes finds where a part of whole characters ends, and no other position. -/
theorem border_encode_iff : Border (encode cs) n ↔ ∃ ds, ds <+: cs ∧ (encode ds).length = n := by
  constructor
  · exact exists_isPrefix_of_border
  · rintro ⟨ds, hds, rfl⟩
    exact border_of_isPrefix hds

end ArrayBridge.Utf8
