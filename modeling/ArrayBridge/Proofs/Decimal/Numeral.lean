import ArrayBridge.Decimal.Numeral
import Mathlib.Data.List.TakeWhile

/-!
How numerals are written, and that the reader takes the longest one at the front of a text.
-/
namespace ArrayBridge.Decimal

def Digits (ds : List Char) : Prop := ∀ c ∈ ds, c.isDigit = true

/-- A sign or none, and whether it is a minus. -/
inductive Signed : Bool → List Char → Prop
  | bare : Signed false []
  | plus : Signed false ['+']
  | minus : Signed true ['-']

/-- Digits with an optional point among them: those before it, those behind it, and the text. -/
inductive Mantissa : List Char → List Char → List Char → Prop
  | whole {ds : List Char} : Digits ds → ds ≠ [] → Mantissa ds [] ds
  | mixed {ds fs : List Char} : Digits ds → ds ≠ [] → Digits fs → Mantissa ds fs (ds ++ '.' :: fs)
  | fraction {fs : List Char} : Digits fs → fs ≠ [] → Mantissa [] fs ('.' :: fs)

/-- An exponent or none. -/
inductive Exponent : Int → List Char → Prop
  | absent : Exponent 0 []
  | given {c : Char} {negative : Bool} {s ds : List Char} : c = 'e' ∨ c = 'E' → Signed negative s → Digits ds →
      ds ≠ [] →
      Exponent (if negative then -(Nat.ofDigitChars 10 ds 0 : Int) else Nat.ofDigitChars 10 ds 0) (c :: (s ++ ds))

/-- The texts of a numeral. -/
inductive Numeral.Spells : Numeral → List Char → Prop
  | intro {negative : Bool} {whole fraction s m x : List Char} {exponent : Int} : Signed negative s →
      Mantissa whole fraction m → Exponent exponent x → Spells ⟨negative, whole, fraction, exponent⟩ (s ++ (m ++ x))

variable {negative : Bool} {c : Char} {n : Numeral} {cs ds fs whole fraction s m x t p r : List Char} {k : Int}

theorem Digits.takeWhile_append (h : Digits ds) (r : List Char) :
    (ds ++ r).takeWhile Char.isDigit = ds ++ r.takeWhile Char.isDigit :=
  List.takeWhile_append_of_pos h

theorem Digits.dropWhile_append (h : Digits ds) (r : List Char) :
    (ds ++ r).dropWhile Char.isDigit = r.dropWhile Char.isDigit :=
  List.dropWhile_append_of_pos h

theorem digits_takeWhile (r : List Char) : Digits (r.takeWhile Char.isDigit) := fun _ hc =>
  List.mem_takeWhile_imp hc

theorem digitsValue_eq (ds : List Char) : digitsValue ds = Nat.ofDigitChars 10 ds 0 := Nat.ofDigitChars_eq_foldl.symm

theorem length_dropWhile_le (r : List Char) : (r.dropWhile Char.isDigit).length ≤ r.length :=
  (List.dropWhile_sublist _).length_le

/-! The parts of the reader: what each of them takes, and what it leaves. -/

theorem signed_of_ne (hminus : c ≠ '-') (hplus : c ≠ '+') (r : List Char) : signed (c :: r) = (false, c :: r) := by
  unfold signed
  split
  · rename_i heq
    exact absurd (List.cons.inj heq).1 hminus
  · rename_i heq
    exact absurd (List.cons.inj heq).1 hplus
  · rfl

theorem exists_signed (cs : List Char) : ∃ s, Signed (signed cs).1 s ∧ cs = s ++ (signed cs).2 := by
  unfold signed
  split
  · exact ⟨['-'], .minus, rfl⟩
  · exact ⟨['+'], .plus, rfl⟩
  · exact ⟨[], .bare, rfl⟩

theorem isDigit_ne_sign (h : c.isDigit = true ∨ c = '.') : c ≠ '-' ∧ c ≠ '+' := by
  constructor <;> (rintro rfl; exact absurd h (by decide))

theorem Signed.signed_append (h : Signed negative s) (hc : c.isDigit = true ∨ c = '.') (r : List Char) :
    signed (s ++ c :: r) = (negative, c :: r) := by
  cases h with
  | bare => exact signed_of_ne (isDigit_ne_sign hc).1 (isDigit_ne_sign hc).2 r
  | plus | minus => rfl

theorem Mantissa.exists_cons (h : Mantissa whole fraction m) : ∃ c r, m = c :: r ∧ (c.isDigit = true ∨ c = '.') := by
  cases h with
  | whole hds hne =>
      obtain ⟨c, r, rfl⟩ := List.exists_cons_of_ne_nil hne
      exact ⟨c, r, rfl, .inl (hds c (.head _))⟩
  | mixed hds hne _ =>
      rename_i ds
      obtain ⟨c, r, rfl⟩ := List.exists_cons_of_ne_nil hne
      exact ⟨c, _, rfl, .inl (hds c (.head _))⟩
  | fraction => exact ⟨'.', _, rfl, .inr rfl⟩

theorem signed_append_mantissa (hs : Signed negative s) (hm : Mantissa whole fraction m) (r : List Char) :
    signed (s ++ (m ++ r)) = (negative, m ++ r) := by
  obtain ⟨c, m, rfl, hc⟩ := hm.exists_cons
  exact hs.signed_append hc (m ++ r)

/-- Behind the digits of a numeral stands its exponent, or what is no part of it. -/
theorem Exponent.dropWhile_eq (h : Exponent k x) : x.takeWhile Char.isDigit = [] ∧ x.dropWhile Char.isDigit = x := by
  cases h with
  | absent => exact ⟨rfl, rfl⟩
  | given hc _ _ _ => rcases hc with rfl | rfl <;> exact ⟨rfl, rfl⟩

theorem Exponent.fractionPart_eq (h : Exponent k x) : fractionPart x = ([], x) := by
  cases h with
  | absent => rfl
  | given hc _ _ _ => rcases hc with rfl | rfl <;> rfl

theorem exponentPart_append (hc : c = 'e' ∨ c = 'E') (hs : Signed negative s) (hds : Digits ds) (hne : ds ≠ [])
    (r : List Char) :
    exponentPart (c :: (s ++ (ds ++ r))) =
      (if negative then -(Nat.ofDigitChars 10 (ds ++ r.takeWhile Char.isDigit) 0 : Int)
        else Nat.ofDigitChars 10 (ds ++ r.takeWhile Char.isDigit) 0, r.dropWhile Char.isDigit) := by
  have hsigned := signed_append_mantissa hs (.whole hds hne) r
  have hsome : ds ++ r.takeWhile Char.isDigit ≠ [] := List.append_ne_nil_of_left_ne_nil hne _
  rw [exponentPart, hsigned]
  dsimp only
  rw [hds.takeWhile_append, hds.dropWhile_append, if_pos ⟨hc, hsome⟩, digitsValue_eq]

theorem Exponent.exponentPart_eq (h : Exponent k x) : exponentPart x = (k, []) := by
  cases h with
  | absent => rfl
  | given hc hs hds hne =>
      have heq := exponentPart_append hc hs hds hne []
      rw [List.append_nil, List.takeWhile_nil, List.append_nil] at heq
      exact heq

theorem exists_exponent (cs : List Char) : ∃ x, Exponent (exponentPart cs).1 x ∧ cs = x ++ (exponentPart cs).2 := by
  cases cs with
  | nil => exact ⟨[], .absent, rfl⟩
  | cons c r =>
      obtain ⟨s, hs, hr⟩ := exists_signed r
      rw [exponentPart]
      split
      · rename_i h
        rw [digitsValue_eq]
        refine ⟨_, .given h.1 hs (digits_takeWhile _) h.2, ?_⟩
        rw [List.cons_append, List.append_assoc, List.takeWhile_append_dropWhile, ← hr]
      · exact ⟨[], .absent, rfl⟩

theorem length_exponentPart_le (cs : List Char) : (exponentPart cs).2.length ≤ cs.length := by
  obtain ⟨x, -, hcs⟩ := exists_exponent cs
  conv => rhs; rw [hcs]
  rw [List.length_append]
  exact Nat.le_add_left _ _

theorem length_fractionPart_le (cs : List Char) : (fractionPart cs).2.length ≤ cs.length := by
  unfold fractionPart
  split
  · exact Nat.le_succ_of_le (length_dropWhile_le _)
  · exact Nat.le_refl _

theorem Exponent.length_exponentPart_le (h : Exponent k x) (t : List Char) :
    (exponentPart ((x ++ t).dropWhile Char.isDigit)).2.length ≤ t.length := by
  cases h with
  | absent => exact (Decimal.length_exponentPart_le _).trans (length_dropWhile_le t)
  | @given c negative s ds hc hs hds hne =>
      have hform : (c :: (s ++ ds) ++ t).dropWhile Char.isDigit = c :: (s ++ (ds ++ t)) := by
        rw [List.cons_append, List.append_assoc]
        rcases hc with rfl | rfl <;> rfl
      rw [hform, exponentPart_append hc hs hds hne]
      exact length_dropWhile_le t

theorem Exponent.length_fractionPart_le (h : Exponent k x) (t : List Char) :
    (exponentPart (fractionPart ((x ++ t).dropWhile Char.isDigit)).2).2.length ≤ t.length := by
  cases h with
  | absent =>
      calc (exponentPart (fractionPart (t.dropWhile Char.isDigit)).2).2.length
        _ ≤ (fractionPart (t.dropWhile Char.isDigit)).2.length := Decimal.length_exponentPart_le _
        _ ≤ (t.dropWhile Char.isDigit).length := Decimal.length_fractionPart_le _
        _ ≤ t.length := length_dropWhile_le t
  | @given c negative s ds hc hs hds hne =>
      have hform : fractionPart ((c :: (s ++ ds) ++ t).dropWhile Char.isDigit) = ([], c :: (s ++ (ds ++ t))) := by
        rw [List.cons_append, List.append_assoc]
        rcases hc with rfl | rfl <;> rfl
      rw [hform, exponentPart_append hc hs hds hne]
      exact length_dropWhile_le t

theorem exists_mantissa (hwhole : Digits whole) (hsome : ¬(whole = [] ∧ (fractionPart r).1 = [])) :
    ∃ m, Mantissa whole (fractionPart r).1 m ∧ whole ++ r = m ++ (fractionPart r).2 := by
  unfold fractionPart at hsome ⊢
  split at hsome
  · rename_i r
    have hfraction := digits_takeWhile r
    have hsplit : r = r.takeWhile Char.isDigit ++ r.dropWhile Char.isDigit :=
      List.takeWhile_append_dropWhile.symm
    by_cases hnil : whole = []
    · subst hnil
      exact ⟨_, .fraction hfraction fun hempty => hsome ⟨rfl, hempty⟩, congrArg ('.' :: ·) hsplit⟩
    · refine ⟨_, .mixed hwhole hnil hfraction, ?_⟩
      rw [List.append_assoc, List.cons_append, ← hsplit]
  · exact ⟨whole, .whole hwhole fun hnil => hsome ⟨hnil, rfl⟩, rfl⟩

/-! The reader. -/

theorem spells_of_read? (h : Numeral.read? cs = some (n, t)) : ∃ p, n.Spells p ∧ cs = p ++ t := by
  unfold Numeral.read? at h
  dsimp only at h
  split at h
  · cases h
  · rename_i hsome
    cases h
    obtain ⟨s, hs, hcs⟩ := exists_signed cs
    obtain ⟨m, hm, hmantissa⟩ := exists_mantissa (digits_takeWhile _) hsome
    obtain ⟨x, hx, hexponent⟩ := exists_exponent (fractionPart ((signed cs).2.dropWhile Char.isDigit)).2
    refine ⟨s ++ (m ++ x), .intro hs hm hx, ?_⟩
    rw [List.takeWhile_append_dropWhile] at hmantissa
    rw [List.append_assoc, List.append_assoc, ← hexponent, ← hmantissa, ← hcs]

theorem takeWhile_pointed (hds : Digits ds) (r : List Char) : (ds ++ '.' :: r).takeWhile Char.isDigit = ds := by
  rw [hds.takeWhile_append]
  exact List.append_nil ds

theorem fractionPart_pointed (hds : Digits ds) (hfs : Digits fs) (r : List Char) :
    fractionPart ((ds ++ '.' :: (fs ++ r)).dropWhile Char.isDigit) =
      (fs ++ r.takeWhile Char.isDigit, r.dropWhile Char.isDigit) := by
  rw [hds.dropWhile_append, ← hfs.takeWhile_append, ← hfs.dropWhile_append r]
  rfl

theorem Mantissa.whole_or_pointed (h : Mantissa whole fraction m) :
    (Digits whole ∧ whole ≠ [] ∧ fraction = [] ∧ m = whole) ∨
      (Digits whole ∧ Digits fraction ∧ ¬(whole = [] ∧ fraction = []) ∧ m = whole ++ '.' :: fraction) := by
  cases h with
  | whole hds hne => exact .inl ⟨hds, hne, rfl, rfl⟩
  | mixed hds hne hfs => exact .inr ⟨hds, hfs, fun hnil => hne hnil.1, rfl⟩
  | fraction hfs hne => exact .inr ⟨nofun, hfs, fun hnil => hne hnil.2, rfl⟩

/-- The reader goes no less far than a numeral at the front does. -/
theorem Numeral.Spells.read?_append (h : n.Spells p) (t : List Char) :
    ∃ n' r, Numeral.read? (p ++ t) = some (n', r) ∧ r.length ≤ t.length := by
  cases h with
  | @intro negative whole fraction s m x k hs hm hx =>
      have hform : s ++ (m ++ x) ++ t = s ++ (m ++ (x ++ t)) := by simp only [List.append_assoc]
      rw [hform, Numeral.read?, signed_append_mantissa hs hm]
      dsimp only
      rcases hm.whole_or_pointed with ⟨hds, hne, -, rfl⟩ | ⟨hds, hfs, hsome, rfl⟩
      · rw [hds.takeWhile_append, hds.dropWhile_append, if_neg fun hnil => hne (List.append_eq_nil_iff.mp hnil.1).1]
        exact ⟨_, _, rfl, hx.length_fractionPart_le t⟩
      · rw [List.append_assoc, List.cons_append, takeWhile_pointed hds, fractionPart_pointed hds hfs,
          if_neg fun hnil => hsome ⟨hnil.1, (List.append_eq_nil_iff.mp hnil.2).1⟩]
        exact ⟨_, _, rfl, hx.length_exponentPart_le t⟩

/-- A numeral is read as what it spells. -/
theorem Numeral.Spells.read?_eq (h : n.Spells p) : Numeral.read? p = some (n, []) := by
  cases h with
  | @intro negative whole fraction s m x k hs hm hx =>
      obtain ⟨htake, hdrop⟩ := hx.dropWhile_eq
      rw [Numeral.read?, signed_append_mantissa hs hm]
      dsimp only
      rcases hm.whole_or_pointed with ⟨hds, hne, rfl, rfl⟩ | ⟨hds, hfs, hsome, rfl⟩
      · rw [hds.takeWhile_append, hds.dropWhile_append, htake, hdrop, hx.fractionPart_eq, List.append_nil,
          if_neg fun hnil => hne hnil.1, hx.exponentPart_eq]
      · rw [List.append_assoc, List.cons_append, takeWhile_pointed hds, fractionPart_pointed hds hfs, htake, hdrop,
          List.append_nil, if_neg hsome, hx.exponentPart_eq]

/-- What the reader takes is a numeral, and no longer one stands there. -/
theorem longest_of_read? (h : Numeral.read? cs = some (n, t)) :
    ∃ p, n.Spells p ∧ cs = p ++ t ∧ ∀ n' q r, Numeral.Spells n' q → cs = q ++ r → q.length ≤ p.length := by
  obtain ⟨p, hp, hcs⟩ := spells_of_read? h
  refine ⟨p, hp, hcs, fun n' q r hq hqr => ?_⟩
  obtain ⟨n'', t', hread, hle⟩ := hq.read?_append r
  rw [← hqr, h, Option.some.injEq, Prod.mk.injEq] at hread
  have hlen := congrArg List.length (hcs.symm.trans hqr)
  rw [List.length_append, List.length_append] at hlen
  rw [← hread.2] at hle
  omega

theorem not_spells_of_read? (h : Numeral.read? cs = none) (hp : n.Spells p) (r : List Char) : cs ≠ p ++ r := by
  rintro rfl
  obtain ⟨n', t', hread, -⟩ := hp.read?_append r
  cases h.symm.trans hread

theorem Digits.ascii (h : Digits ds) (hc : c ∈ ds) : c.toNat < 0x80 := by
  have hdigit := h c hc
  rw [Char.isDigit, Bool.and_eq_true, decide_eq_true_iff, decide_eq_true_iff] at hdigit
  have hle : c.toNat ≤ 57 := hdigit.2
  omega

theorem Signed.ascii (h : Signed negative s) (hc : c ∈ s) : c.toNat < 0x80 := by
  cases h with
  | bare => cases hc
  | plus | minus =>
      obtain rfl := List.mem_singleton.mp hc
      decide

theorem Numeral.Spells.ascii (h : n.Spells p) (hc : c ∈ p) : c.toNat < 0x80 := by
  cases h with
  | intro hs hm hx =>
      rcases List.mem_append.mp hc with hc | hc
      · exact hs.ascii hc
      rcases List.mem_append.mp hc with hc | hc
      · rcases hm.whole_or_pointed with ⟨hds, -, -, rfl⟩ | ⟨hds, hfs, -, rfl⟩
        · exact hds.ascii hc
        · rcases List.mem_append.mp hc with hc | hc
          · exact hds.ascii hc
          · rcases List.mem_cons.mp hc with rfl | hc
            · decide
            · exact hfs.ascii hc
      · cases hx with
        | absent => cases hc
        | given he hs hds _ =>
            rcases List.mem_cons.mp hc with rfl | hc
            · rcases he with rfl | rfl <;> decide
            · rcases List.mem_append.mp hc with hc | hc
              · exact hs.ascii hc
              · exact hds.ascii hc

theorem Numeral.Spells.parse?_eq (h : n.Spells p) : parse? p = some n.value := by
  rw [parse?, h.read?_eq]

end ArrayBridge.Decimal
