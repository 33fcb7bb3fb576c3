import ArrayBridge.Proofs.Latin1

/-!
Engine text on its way to the host. Each step of the reader takes a low byte, or a high byte with the one behind it,
and gives one byte. So text of one- and two-byte characters is read character by character; but a pair may also give
a NUL, and then the text is cut there on its way back.
-/
namespace ArrayBridge.Charset

/-- Bytes that the reader takes in whole steps. -/
inductive Whole : Bytes → Prop
  | nil : Whole []
  | low {b : UInt8} {r : Bytes} : b < 0x80 → Whole r → Whole (b :: r)
  | pair {b c : UInt8} {r : Bytes} : ¬b < 0x80 → Whole r → Whole (b :: c :: r)

/-- Bytes of which the first step gives a NUL. At the end a high byte is read with a zero behind it. -/
inductive Vanishes : Bytes → Prop
  | last {b : UInt8} : ¬b < 0x80 → b.toNat % 4 = 0 → Vanishes [b]
  | pair {b c : UInt8} {r : Bytes} : ¬b < 0x80 → b.toNat % 4 = 0 → c.toNat % 64 = 0 → Vanishes (b :: c :: r)

variable {b c : UInt8} {p q s : Bytes}

theorem Whole.fold_append (h : Whole p) (q : Bytes) : fold (p ++ q) = fold p ++ fold q := by
  induction h with
  | nil => rfl
  | low hb _ ih => rw [List.cons_append, fold_low hb, fold_low hb, ih, List.cons_append]
  | pair hb _ ih => rw [List.cons_append, List.cons_append, fold_high hb, fold_high hb, ih, List.cons_append]

/-- Two bits of the first byte are kept and six of the second. -/
theorem toNat_joined (b c : UInt8) : (joined b c).toNat = b.toNat % 4 * 64 + c.toNat % 64 := by
  have hb : b.toNat <<< 6 % 2 ^ 8 = (b.toNat % 4) <<< 6 := by
    rw [Nat.shiftLeft_eq, Nat.shiftLeft_eq]
    omega
  have hc : c.toNat &&& 0x3F = c.toNat % 64 := Nat.and_two_pow_sub_one_eq_mod c.toNat 6
  have hlt : c.toNat % 64 < 2 ^ 6 := Nat.mod_lt _ (by decide)
  calc (joined b c).toNat
    _ = b.toNat <<< 6 % 2 ^ 8 ||| (c.toNat &&& 0x3F) := rfl
    _ = (b.toNat % 4) <<< 6 ||| c.toNat % 64 := by rw [hb, hc]
    _ = b.toNat % 4 * 64 + c.toNat % 64 := by rw [← Nat.shiftLeft_add_eq_or_of_lt hlt, Nat.shiftLeft_eq]

theorem joined_eq_zero_iff : joined b c = 0 ↔ b.toNat % 4 = 0 ∧ c.toNat % 64 = 0 := by
  rw [← UInt8.toNat_inj, toNat_joined, UInt8.toNat_zero]
  omega

theorem joined_zero (b : UInt8) : joined b 0 = b <<< 6 := by
  rw [joined, UInt8.zero_and, UInt8.or_zero]

theorem fold_last (h : ¬b < 0x80) : fold [b] = [joined b 0] := by
  rw [joined_zero]
  exact if_neg h

theorem Vanishes.zero_mem_fold (h : Vanishes q) : 0 ∈ fold q := by
  cases h with
  | last hb hlow =>
      rw [fold_last hb, joined_eq_zero_iff.mpr ⟨hlow, rfl⟩]
      exact List.mem_cons_self
  | pair hb hlow hc =>
      rw [fold_high hb, joined_eq_zero_iff.mpr ⟨hlow, hc⟩]
      exact List.mem_cons_self

theorem exists_vanishes (hs : 0 ∉ s) (h : 0 ∈ fold s) : ∃ p q, s = p ++ q ∧ Whole p ∧ Vanishes q := by
  -- The steps before the first NUL are put in front one by one.
  fun_induction fold s with
  | case1 => cases h
  | case2 b hlow => exact absurd h hs
  | case3 b hhigh =>
      rw [← joined_zero, List.mem_singleton] at h
      obtain ⟨hlow, -⟩ := joined_eq_zero_iff.mp h.symm
      exact ⟨[], [b], rfl, .nil, .last hhigh hlow⟩
  | case4 b c r hlow ih =>
      have hne : (0 : UInt8) ≠ b := List.ne_of_not_mem_cons hs
      obtain ⟨p, q, hsplit, hp, hq⟩ := ih (List.not_mem_of_not_mem_cons hs) (List.mem_of_ne_of_mem hne h)
      exact ⟨b :: p, q, by rw [hsplit, List.cons_append], .low hlow hp, hq⟩
  | case5 b c r hhigh ih =>
      rcases List.mem_cons.mp h with hzero | hrest
      · obtain ⟨hlow, hc⟩ := joined_eq_zero_iff.mp hzero.symm
        exact ⟨[], b :: c :: r, rfl, .nil, .pair hhigh hlow hc⟩
      · have hr : 0 ∉ r := List.not_mem_of_not_mem_cons (List.not_mem_of_not_mem_cons hs)
        obtain ⟨p, q, rfl, hp, hq⟩ := ih hr hrest
        exact ⟨b :: c :: p, q, rfl, .pair hhigh hp, hq⟩

theorem zero_mem_fold_iff (hs : 0 ∉ s) : 0 ∈ fold s ↔ ∃ p q, s = p ++ q ∧ Whole p ∧ Vanishes q := by
  constructor
  · exact exists_vanishes hs
  · rintro ⟨p, q, rfl, hp, hq⟩
    rw [hp.fold_append]
    exact List.mem_append_right _ hq.zero_mem_fold

/-! Text of one- and two-byte characters. -/

/-- The bytes of a character that takes no more than two. -/
theorem encodeChar_cases {x : Char} (h : x.toNat ≤ 0x7FF) :
    (UInt8.ofNat x.toNat < 0x80 ∧ String.utf8EncodeChar x = [UInt8.ofNat x.toNat]) ∨
      ∃ b c : UInt8, ¬b < 0x80 ∧ b.toNat % 4 = x.toNat / 64 % 4 ∧ c.toNat % 64 = x.toNat % 64 ∧
        String.utf8EncodeChar x = [b, c] := by
  have hform := Utf8.encodeChar_eq x
  by_cases hlow : x.toNat ≤ 0x7F
  · rw [if_pos hlow] at hform
    refine .inl ⟨?_, hform⟩
    rw [UInt8.lt_iff_toNat_lt, Utf8.toNat_ofNat_of_lt (by omega)]
    exact Nat.lt_succ_of_le hlow
  · rw [if_neg hlow, if_pos h] at hform
    have hfirst : (UInt8.ofNat (x.toNat / 64 % 32 + 0xC0)).toNat = x.toNat / 64 % 32 + 0xC0 :=
      Utf8.toNat_ofNat_of_lt (by omega)
    have hsecond : (UInt8.ofNat (x.toNat / 64 ^ 0 % 64 + 0x80)).toNat = x.toNat / 64 ^ 0 % 64 + 0x80 :=
      Utf8.toNat_ofNat_of_lt (by omega)
    refine .inr ⟨_, _, ?_, ?_, ?_, hform⟩
    · rw [UInt8.lt_iff_toNat_lt, hfirst, Nat.not_lt]
      exact Nat.le_trans (by decide) (Nat.le_add_left 0xC0 _)
    · rw [hfirst]
      omega
    · rw [hsecond, Nat.pow_zero, Nat.div_one]
      omega

theorem whole_encodeChar {x : Char} (h : x.toNat ≤ 0x7FF) : Whole (String.utf8EncodeChar x) := by
  rcases encodeChar_cases h with ⟨hlow, hform⟩ | ⟨b, c, hb, -, -, hform⟩
  · exact hform ▸ .low hlow .nil
  · exact hform ▸ .pair hb .nil

theorem fold_encodeChar {x : Char} (h : x.toNat ≤ 0x7FF) :
    fold (String.utf8EncodeChar x) = [UInt8.ofNat x.toNat] := by
  rcases encodeChar_cases h with ⟨hlow, hform⟩ | ⟨b, c, hb, hfirst, hsecond, hform⟩
  · rw [hform, fold_low hlow]
    rfl
  · have hjoined : joined b c = UInt8.ofNat x.toNat := by
      rw [← UInt8.toNat_inj, toNat_joined, hfirst, hsecond, UInt8.toNat_ofNat']
      omega
    rw [hform, fold_high hb, hjoined]
    rfl

theorem fold_encode {cs : List Char} (h : ∀ x ∈ cs, x.toNat ≤ 0x7FF) :
    fold (Utf8.encode cs) = cs.map fun x => UInt8.ofNat x.toNat := by
  induction cs with
  | nil => rfl
  | cons x cs ih =>
      -- The form of `x` is whole steps, so that the reader stands at the next character behind it.
      have hx := h x List.mem_cons_self
      rw [Utf8.encode_cons, (whole_encodeChar hx).fold_append, fold_encodeChar hx,
        ih fun y hy => h y (List.mem_cons_of_mem x hy)]
      rfl

theorem toSingleByte_of_text {cs : List Char} (h : ∀ x ∈ cs, 1 ≤ x.toNat ∧ x.toNat ≤ 0x7FF) :
    toSingleByte (Utf8.encode cs) = cs.map fun x => UInt8.ofNat x.toNat := by
  have hnul : '\x00' ∉ cs := by
    intro hx
    exact absurd (h _ hx).1 (by decide)
  have hfull : cs.takeWhile (· ≠ '\x00') = cs :=
    List.takeWhile_eq_self_iff.mpr fun x hx => decide_eq_true (ne_of_mem_of_not_mem hx hnul)
  rw [toSingleByte, Utf8.untilNul_encode, hfull]
  exact fold_encode fun x hx => (h x hx).2

theorem zero_mem_toSingleByte_iff_of_text {cs : List Char} (h : ∀ x ∈ cs, 1 ≤ x.toNat ∧ x.toNat ≤ 0x7FF) :
    0 ∈ toSingleByte (Utf8.encode cs) ↔ ∃ x ∈ cs, x.toNat % 256 = 0 := by
  rw [toSingleByte_of_text h, List.mem_map]
  refine exists_congr fun x => and_congr_right fun _ => ?_
  rw [← UInt8.toNat_inj, UInt8.toNat_ofNat', UInt8.toNat_zero]

/-- Text of one- and two-byte characters becomes one byte a character, the low eight bits of its code point. Where
that is the whole code point, it is the Latin-1 form and the text comes back. -/
theorem toSingleByte_encode (s : String) (h : ∀ x ∈ s.toList, 1 ≤ x.toNat ∧ x.toNat ≤ 0x7FF) :
    (toSingleByte (Utf8.encode s.toList)).map UInt8.toNat = s.toList.map (·.toNat % 256) ∧
      ((∀ x ∈ s.toList, x.toNat ≤ 0xFF) →
        toSingleByte (Utf8.encode s.toList) = latin1Bytes s.toList ∧
          latin1 (toSingleByte (Utf8.encode s.toList)) = s.toList ∧
          toUtf8 (toSingleByte (Utf8.encode s.toList)) = Utf8.encode s.toList) := by
  have hbytes := toSingleByte_of_text h
  constructor
  · rw [hbytes, List.map_map]
    exact List.map_congr_left fun x _ => UInt8.toNat_ofNat'
  · intro hsmall
    have hform : toSingleByte (Utf8.encode s.toList) = latin1Bytes s.toList := by
      rw [hbytes]
      exact List.map_congr_left fun x hx => (if_pos (hsmall x hx)).symm
    have hback : latin1 (toSingleByte (Utf8.encode s.toList)) = s.toList := by
      rw [hform, latin1_latin1Bytes]
      exact (List.map_congr_left fun x hx => if_pos (hsmall x hx)).trans (List.map_id _)
    refine ⟨hform, hback, ?_⟩
    have hnul : 0 ∉ toSingleByte (Utf8.encode s.toList) := by
      rw [zero_mem_toSingleByte_iff_of_text h]
      rintro ⟨x, hx, hzero⟩
      have hpos := (h x hx).1
      have hle := hsmall x hx
      omega
    rw [toUtf8, Bytes.untilNul_eq_self hnul, ← encode_latin1, hback]

theorem toSingleByte_encode_mixed :
    toSingleByte (Utf8.encode "Grüße".toList) = [71, 114, 252, 223, 101] ∧
      toUtf8 (toSingleByte (Utf8.encode "Grüße".toList)) = Utf8.encode "Grüße".toList ∧
      (toSingleByte (Utf8.encode "ağ\u07ff".toList)).map UInt8.toNat = [97, 31, 255] := by
  obtain ⟨hbytes, -, hback⟩ := (toSingleByte_encode "Grüße" (by simp)).2 (by simp)
  have hwide := (toSingleByte_encode "ağ\u07ff" (by simp)).1
  exact ⟨hbytes, hback, hwide⟩

/-- What came from the engine comes from there again, unless a NUL is in it, which ends it on the way. A NUL comes of
a pair without the bits that are kept; in real text, of the characters whose code point is a multiple of 256. -/
theorem returns_iff_no_nul (u : Bytes) :
    toSingleByte (toUtf8 (toSingleByte u)) = (toSingleByte u).untilNul ∧
      (toSingleByte (toUtf8 (toSingleByte u)) = toSingleByte u ↔ 0 ∉ toSingleByte u) ∧
      (0 ∈ toSingleByte u ↔ ∃ p q, u.untilNul = p ++ q ∧ Whole p ∧ Vanishes q) ∧
      ∀ cs, (∀ x ∈ cs, 1 ≤ x.toNat ∧ x.toNat ≤ 0x7FF) → Utf8.encode cs = u →
        (0 ∈ toSingleByte u ↔ ∃ x ∈ cs, x.toNat % 256 = 0) := by
  have hback : toSingleByte (toUtf8 (toSingleByte u)) = (toSingleByte u).untilNul :=
    toHost_toEngine .convert (toSingleByte u)
  refine ⟨hback, ?_, zero_mem_fold_iff (Bytes.zero_notMem_untilNul u), ?_⟩
  · rw [hback]
    constructor
    · intro hself
      rw [← hself]
      exact Bytes.zero_notMem_untilNul _
    · exact Bytes.untilNul_eq_self
  · rintro cs h rfl
    exact zero_mem_toSingleByte_iff_of_text h

theorem returns_iff_no_nul_letters :
    toSingleByte (toUtf8 (toSingleByte (Utf8.encode ['é', 'ğ']))) = toSingleByte (Utf8.encode ['é', 'ğ']) ∧
      0 ∈ toSingleByte (Utf8.encode ['é', 'Ā']) := by
  obtain ⟨-, hreturns, -, htext⟩ := returns_iff_no_nul (Utf8.encode ['é', 'ğ'])
  obtain ⟨-, -, -, htext'⟩ := returns_iff_no_nul (Utf8.encode ['é', 'Ā'])
  refine ⟨hreturns.mpr fun hzero => ?_, (htext' _ (by simp) rfl).mpr (by simp)⟩
  exact absurd ((htext _ (by simp) rfl).mp hzero) (by simp)

/-- The letter `Ā` comes out as a NUL, and what stands behind it is lost. -/
theorem letter_becomes_nul :
    Utf8.encode "aĀb".toList = [97, 196, 128, 98] ∧ toSingleByte [97, 196, 128, 98] = [97, 0, 98] ∧
      toSingleByte (toUtf8 (toSingleByte [97, 196, 128, 98])) = [97] ∧
      toSingleByte (toUtf8 (toSingleByte [97, 196, 128, 98])) ≠ toSingleByte [97, 196, 128, 98] := by
  decide

end ArrayBridge.Charset
