import ArrayBridge.Proofs.Decimal.Value
import ArrayBridge.Proofs.Latin1
import ArrayBridge.Sql.Function

/-!
The number at the front of a text. The scan goes by positions in the bytes; it ends where the reader of numerals
ends, which is behind the longest numeral, and never past the end of the text.
-/
namespace ArrayBridge.Sql

open Decimal (Numeral signed fractionPart exponentPart)

variable {bytes rest p : Bytes} {i stop : Nat} {c : Char} {b : UInt8}

theorem ofNat_toNat_eq_iff (hc : c.toNat < 0x80) : Char.ofNat b.toNat = c ↔ b = c.toUInt8 := by
  have hbyte : c.toUInt8.toNat = c.toNat := Nat.mod_eq_of_lt (Nat.lt_trans hc (by decide))
  rw [← UInt8.toNat_inj, hbyte, ← Char.toNat_inj, toNat_ofNat_toNat]

theorem isDigit_ofNat_toNat (b : UInt8) : (Char.ofNat b.toNat).isDigit = isDigitByte b := by
  have hall : ∀ n : Fin 256, (Char.ofNat n.val).isDigit = isDigitByte (UInt8.ofFin n) := by decide +kernel
  exact hall b.toFin

theorem takeWhile_latin1 (bytes : Bytes) :
    (latin1 bytes).takeWhile Char.isDigit = latin1 (bytes.takeWhile isDigitByte) := by
  rw [latin1, latin1, List.takeWhile_map]
  exact congrArg (fun f => (bytes.takeWhile f).map _) (funext isDigit_ofNat_toNat)

theorem drop_cases (bytes : Bytes) (i : Nat) :
    (bytes[i]? = none ∧ bytes.drop i = []) ∨ ∃ b, bytes[i]? = some b ∧ bytes.drop i = b :: bytes.drop (i + 1) := by
  by_cases hi : i < bytes.length
  · exact .inr ⟨bytes[i], List.getElem?_eq_getElem hi, List.drop_eq_getElem_cons hi⟩
  · exact .inl ⟨List.getElem?_eq_none (Nat.not_lt.mp hi), List.drop_eq_nil_of_le (Nat.not_lt.mp hi)⟩

theorem lt_of_getElem? (h : bytes[i]? = some b) : i < bytes.length :=
  (List.getElem?_eq_some_iff.mp h).1

/-! Each step of the scan, and the same step of the reader. -/

theorem blankCount_le (bytes : Bytes) : blankCount bytes ≤ bytes.length := by
  rw [blankCount, ← List.findIdx_eq_getD_findIdx?]
  exact List.findIdx_le_length

theorem drop_blankCount (bytes : Bytes) : bytes.drop (blankCount bytes) = bytes.dropWhile isBlankByte := by
  rw [blankCount, ← List.findIdx_eq_getD_findIdx?, List.dropWhile_eq_drop_findIdx_not]

theorem digitCount_eq (bytes : Bytes) (i : Nat) :
    digitCount bytes i = ((latin1 (bytes.drop i)).takeWhile Char.isDigit).length := by
  have hmin : bytes.drop (min i bytes.length) = bytes.drop i := by
    rcases Nat.le_total i bytes.length with hle | hle
    · rw [Nat.min_eq_left hle]
    · rw [Nat.min_eq_right hle, List.drop_length, List.drop_eq_nil_of_le hle]
  rw [digitCount, hmin, takeWhile_latin1, latin1, List.length_map]

theorem dropWhile_latin1 (bytes : Bytes) (i : Nat) :
    (latin1 (bytes.drop i)).dropWhile Char.isDigit = latin1 (bytes.drop (i + digitCount bytes i)) := by
  have hsplit : (latin1 (bytes.drop i)).drop (digitCount bytes i) =
      (latin1 (bytes.drop i)).dropWhile Char.isDigit := by
    rw [digitCount_eq]
    conv => lhs; arg 2; rw [← List.takeWhile_append_dropWhile (p := Char.isDigit) (l := latin1 (bytes.drop i))]
    rw [List.drop_left]
  rw [← hsplit, latin1, ← List.map_drop, List.drop_drop]
  rfl

theorem digitCount_le (h : i ≤ bytes.length) : i + digitCount bytes i ≤ bytes.length := by
  have hle := (List.takeWhile_sublist Char.isDigit (l := latin1 (bytes.drop i))).length_le
  rw [← digitCount_eq, latin1, List.length_map, List.length_drop] at hle
  omega

theorem latin1_drop_of_eq (h : bytes.drop i = b :: bytes.drop (i + 1)) :
    latin1 (bytes.drop i) = Char.ofNat b.toNat :: latin1 (bytes.drop (i + 1)) := by
  rw [h]
  rfl

theorem signed_latin1 (bytes : Bytes) (i : Nat) :
    (signed (latin1 (bytes.drop i))).2 = latin1 (bytes.drop (i + signCount bytes i)) := by
  rcases drop_cases bytes i with ⟨hnone, hdrop⟩ | ⟨b, hsome, hdrop⟩
  · rw [signCount, hnone, if_neg (by simp), Nat.add_zero, hdrop]
    rfl
  rw [signCount, hsome]
  simp only [Option.some.injEq]
  by_cases hsign : b = '+'.toUInt8 ∨ b = '-'.toUInt8
  · rw [if_pos hsign, latin1_drop_of_eq hdrop]
    rcases hsign with hplus | hminus
    · rw [(ofNat_toNat_eq_iff (by decide)).mpr hplus]
      rfl
    · rw [(ofNat_toNat_eq_iff (by decide)).mpr hminus]
      rfl
  · obtain ⟨hplus, hminus⟩ := not_or.mp hsign
    have hsigned := Decimal.signed_of_ne (mt (ofNat_toNat_eq_iff (by decide)).mp hminus)
      (mt (ofNat_toNat_eq_iff (by decide)).mp hplus) (latin1 (bytes.drop (i + 1)))
    rw [if_neg hsign, Nat.add_zero, latin1_drop_of_eq hdrop, hsigned]

theorem signCount_le (h : i ≤ bytes.length) : i + signCount bytes i ≤ bytes.length := by
  rw [signCount]
  split
  · rename_i hsign
    rcases hsign with hsign | hsign
    · exact lt_of_getElem? hsign
    · exact lt_of_getElem? hsign
  · exact h

theorem fractionPart_of_ne (hc : c ≠ '.') (r : List Char) : fractionPart (c :: r) = ([], c :: r) := by
  unfold Decimal.fractionPart
  split
  · rename_i heq
    exact absurd (List.cons.inj heq).1 hc
  · rfl

theorem fractionPart_latin1 (bytes : Bytes) (i : Nat) :
    (fractionPart (latin1 (bytes.drop i))).1.length = (fractionAt bytes i).1 ∧
      (fractionPart (latin1 (bytes.drop i))).2 = latin1 (bytes.drop (fractionAt bytes i).2) := by
  rw [fractionAt]
  rcases drop_cases bytes i with ⟨hnone, hdrop⟩ | ⟨b, hsome, hdrop⟩
  · rw [hnone, if_neg (by simp), hdrop]
    exact ⟨rfl, rfl⟩
  have hcons := latin1_drop_of_eq hdrop
  rw [hsome, hcons]
  simp only [Option.some.injEq]
  by_cases hpoint : b = '.'.toUInt8
  · rw [if_pos hpoint, (ofNat_toNat_eq_iff (by decide)).mpr hpoint]
    exact ⟨(digitCount_eq bytes (i + 1)).symm, dropWhile_latin1 bytes (i + 1)⟩
  · rw [if_neg hpoint, fractionPart_of_ne (mt (ofNat_toNat_eq_iff (by decide)).mp hpoint)]
    exact ⟨rfl, hcons.symm⟩

theorem fractionAt_le (h : i ≤ bytes.length) : (fractionAt bytes i).2 ≤ bytes.length := by
  rw [fractionAt]
  split
  · rename_i hpoint
    exact digitCount_le (lt_of_getElem? hpoint)
  · exact h

theorem exponentPart_latin1 (bytes : Bytes) (i : Nat) :
    (exponentPart (latin1 (bytes.drop i))).2 = latin1 (bytes.drop (exponentEnd bytes i)) := by
  rw [exponentEnd]
  rcases drop_cases bytes i with ⟨hnone, hdrop⟩ | ⟨b, hsome, hdrop⟩
  · rw [hnone, hdrop, if_neg (by simp), hdrop]
    rfl
  have hmark : (Char.ofNat b.toNat = 'e' ∨ Char.ofNat b.toNat = 'E') ↔ b = 'e'.toUInt8 ∨ b = 'E'.toUInt8 :=
    or_congr (ofNat_toNat_eq_iff (by decide)) (ofNat_toNat_eq_iff (by decide))
  have hcons := latin1_drop_of_eq hdrop
  rw [hsome, hcons, Decimal.exponentPart, signed_latin1 bytes (i + 1)]
  simp only [Option.some.injEq, hmark, ← List.length_pos_iff, ← digitCount_eq]
  by_cases he : b = 'e'.toUInt8 ∨ b = 'E'.toUInt8
  · rw [if_pos he]
    by_cases hpos : 0 < digitCount bytes (i + 1 + signCount bytes (i + 1))
    · rw [if_pos ⟨he, hpos⟩, if_pos hpos]
      exact dropWhile_latin1 bytes _
    · rw [if_neg fun h => hpos h.2, if_neg hpos, hcons]
  · rw [if_neg fun h => he h.1, if_neg he, hcons]

theorem exponentEnd_le (h : i ≤ bytes.length) : exponentEnd bytes i ≤ bytes.length := by
  rw [exponentEnd]
  split
  · rename_i hmark
    have hi : i + 1 ≤ bytes.length := by
      rcases hmark with hmark | hmark
      · exact lt_of_getElem? hmark
      · exact lt_of_getElem? hmark
    dsimp only
    split
    · exact digitCount_le (signCount_le hi)
    · exact h
  · exact h

theorem numeralEnd?_le (h : numeralEnd? rest = some stop) : stop ≤ rest.length := by
  unfold numeralEnd? at h
  dsimp only at h
  split at h
  · cases h
  · cases h
    have hfirst := signCount_le (Nat.zero_le rest.length)
    rw [Nat.zero_add] at hfirst
    exact exponentEnd_le (fractionAt_le (digitCount_le hfirst))

/-- The scan ends where the reader ends. -/
theorem read?_latin1 (rest : Bytes) :
    (Numeral.read? (latin1 rest)).map Prod.snd = (numeralEnd? rest).map fun stop => latin1 (rest.drop stop) := by
  have hsigned := signed_latin1 rest 0
  rw [Nat.zero_add, List.drop_zero] at hsigned
  obtain ⟨hcount, hfraction⟩ := fractionPart_latin1 rest (signCount rest 0 + digitCount rest (signCount rest 0))
  have hexponent := exponentPart_latin1 rest
    (fractionAt rest (signCount rest 0 + digitCount rest (signCount rest 0))).2
  have hempty : (latin1 (rest.drop (signCount rest 0))).takeWhile Char.isDigit = [] ∧
      (fractionPart (latin1 (rest.drop (signCount rest 0 + digitCount rest (signCount rest 0))))).1 = [] ↔
        digitCount rest (signCount rest 0) +
          (fractionAt rest (signCount rest 0 + digitCount rest (signCount rest 0))).1 = 0 := by
    rw [← List.length_eq_zero_iff, ← List.length_eq_zero_iff, ← digitCount_eq, hcount, Nat.add_eq_zero_iff]
  rw [Numeral.read?, numeralEnd?, hsigned, dropWhile_latin1, hfraction]
  dsimp only
  split
  · rename_i hnone
    rw [if_pos (hempty.mp hnone)]
    rfl
  · rename_i hsome
    rw [if_neg (mt hempty.mpr hsome)]
    exact congrArg some hexponent

/-- What stands at the front of a text, where it ends, and its value: no numeral, which counts as zero, or one that
is the longest, is read without fault and gives the double nearest to the number it stands for. -/
inductive Leading (rest : Bytes) : Option Nat → Binary64 → Prop
  | absent : (∀ n q, q <+: rest → ¬Numeral.Spells n (latin1 q)) → Leading rest none ⟨0⟩
  | longest {n : Numeral} {p : Bytes} {x : Binary64} : p <+: rest → n.Spells (latin1 p) →
      (∀ n' q, q <+: rest → Numeral.Spells n' (latin1 q) → q.length ≤ p.length) → Utf8.decode? p = some (latin1 p) →
      Decimal.parse? (latin1 p) = some x → Binary64.Nearest n.negative |n.toRat| x → Leading rest (some p.length) x

theorem Leading.unique {stop stop' : Option Nat} {x x' : Binary64} (h : Leading rest stop x)
    (h' : Leading rest stop' x') : stop = stop' ∧ x = x' := by
  cases h with
  | absent hnone =>
      cases h' with
      | absent => exact ⟨rfl, rfl⟩
      | longest hp hspells => exact absurd hspells (hnone _ _ hp)
  | longest hp hspells hmost _ _ hnearest =>
      cases h' with
      | absent hnone => exact absurd hspells (hnone _ _ hp)
      | longest hp' hspells' hmost' _ _ hnearest' =>
          have hle := hmost' _ _ hp hspells
          obtain rfl := (List.prefix_of_prefix_length_le hp hp' hle).eq_of_length
            (Nat.le_antisymm hle (hmost _ _ hp' hspells'))
          cases hspells.read?_eq.symm.trans hspells'.read?_eq
          exact ⟨rfl, hnearest.unique hnearest'⟩

theorem widen_of_low (h : ∀ b ∈ p, b < 0x80) : Charset.widen p = p := by
  induction p with
  | nil => rfl
  | cons b p ih => rw [Charset.widen_low (h b (.head _)), ih fun b' hb' => h b' (.tail _ hb')]

theorem decode?_of_spells {n : Numeral} (h : n.Spells (latin1 p)) : Utf8.decode? p = some (latin1 p) := by
  have hlow : ∀ b ∈ p, b < 0x80 := by
    intro b hb
    have hascii := h.ascii (List.mem_map_of_mem hb)
    rwa [toNat_ofNat_toNat] at hascii
  rw [Utf8.decode?_eq_some_iff, Charset.encode_latin1, widen_of_low hlow]

theorem latin1_append (a b : Bytes) : latin1 (a ++ b) = latin1 a ++ latin1 b :=
  List.map_append

theorem leading_of_drop (h : bytes.drop (blankCount bytes) = rest) :
    Leading rest (numeralEnd? rest) (leadingNumber bytes) := by
  have hread := read?_latin1 rest
  rw [leadingNumber, h]
  cases hend : numeralEnd? rest with
  | none =>
      rw [hend, Option.map_none, Option.map_eq_none_iff] at hread
      refine .absent fun n q hq hspells => ?_
      obtain ⟨r, rfl⟩ := hq
      exact Decimal.not_spells_of_read? hread hspells (latin1 r) (latin1_append q r)
  | some stop =>
      rw [hend, Option.map_some, Option.map_eq_some_iff] at hread
      obtain ⟨⟨n, t⟩, hread, rfl⟩ := hread
      obtain ⟨q, hq, hsplit, hlongest⟩ := Decimal.longest_of_read? hread
      -- The characters that were read are those of the bytes that were scanned.
      have hform : latin1 rest = latin1 (rest.take stop) ++ latin1 (rest.drop stop) := by
        rw [← latin1_append, List.take_append_drop]
      obtain rfl := List.append_cancel_right (hsplit.symm.trans hform)
      have hlen : (rest.take stop).length = stop := List.length_take_of_le (numeralEnd?_le hend)
      have hleading := Leading.longest (List.take_prefix stop rest) hq ?_ (decode?_of_spells hq) hq.parse?_eq
        n.nearest_value
      · rw [hlen] at hleading
        dsimp only
        rw [decode?_of_spells hq, Option.bind_some, hq.parse?_eq]
        exact hleading
      · intro n' q' hq' hspells
        obtain ⟨r, rfl⟩ := hq'
        have hle := hlongest n' (latin1 q') (latin1 r) hspells (latin1_append q' r)
        rwa [latin1, latin1, List.length_map, List.length_map] at hle

/-- The number of a text is the value of the longest numeral behind its blanks, or zero without one. The scan stays
within the text, and what it found is always read. -/
theorem leadingNumber_exact (bytes : Bytes) :
    ∃ rest, rest = bytes.dropWhile (· ∈ [0x20, 0x09, 0x0A, 0x0C, 0x0D]) ∧ blankCount bytes ≤ bytes.length ∧
      bytes.drop (blankCount bytes) = rest ∧
      ∀ stop x, Leading rest stop x ↔ stop = numeralEnd? rest ∧ x = leadingNumber bytes := by
  have hblank : isBlankByte = fun b => decide (b ∈ ([0x20, 0x09, 0x0A, 0x0C, 0x0D] : Bytes)) := by
    funext b
    simp only [isBlankByte, List.mem_cons, List.not_mem_nil, or_false, Bool.decide_or, Bool.or_assoc]
  have hdrop : bytes.drop (blankCount bytes) = bytes.dropWhile (· ∈ [0x20, 0x09, 0x0A, 0x0C, 0x0D]) := by
    rw [drop_blankCount, hblank]
  refine ⟨_, rfl, blankCount_le bytes, hdrop, fun stop x => ⟨fun h => h.unique (leading_of_drop hdrop), ?_⟩⟩
  rintro ⟨rfl, rfl⟩
  exact leading_of_drop hdrop

-- A mark without digits behind it ends the numeral.
example : numeralEnd? "-1.e+x".toUTF8.toList = some 3 := by decide +kernel

end ArrayBridge.Sql
