import ArrayBridge.Proofs.Decimal.Numeral
import ArrayBridge.Proofs.Decimal.Rounding

/-!
The two notations of a float, and the numbers that numerals stand for.
-/
namespace ArrayBridge.Decimal

/-- Digits with a point between them, times a power of ten. -/
def pointedValue (whole fraction : List Char) (exponent : ℤ) : ℚ :=
  Nat.ofDigitChars 10 (whole ++ fraction) 0 * 10 ^ (exponent - fraction.length)

theorem pointedValue_append_zeros (whole fraction : List Char) (n : ℕ) (exponent : ℤ) :
    pointedValue whole (fraction ++ zeros n) exponent = pointedValue whole fraction exponent := by
  rw [pointedValue, pointedValue, ← List.append_assoc, ofDigitChars_append_zeros, List.length_append, zeros,
    List.length_replicate]
  push_cast
  rw [← zpow_natCast, mul_assoc, ← zpow_add₀ (by norm_num)]
  congr 2
  ring

/-- The sign of a number as a factor. -/
def signFactor (negative : Bool) : ℚ := if negative then -1 else 1

theorem significant_signFactor_mul {n : ℕ} {v w : ℚ} (h : Significant n v w) (negative : Bool) :
    Significant n (signFactor negative * v) (signFactor negative * w) := by
  cases negative with
  | false => rwa [signFactor, if_neg Bool.false_ne_true, one_mul, one_mul]
  | true =>
      rw [signFactor, if_pos rfl, neg_one_mul, neg_one_mul]
      exact h.neg

theorem abs_signFactor_mul (negative : Bool) {v : ℚ} (h : 0 ≤ v) : |signFactor negative * v| = v := by
  cases negative with
  | false => rw [signFactor, if_neg Bool.false_ne_true, one_mul, abs_of_nonneg h]
  | true => rw [signFactor, if_pos rfl, neg_one_mul, abs_neg, abs_of_nonneg h]

/-- The rational that a numeral stands for. -/
def Numeral.toRat (n : Numeral) : ℚ := signFactor n.negative * pointedValue n.whole n.fraction n.exponent

def minus (negative : Bool) : List Char := if negative then ['-'] else []

theorem signed_minus (negative : Bool) : Signed negative (minus negative) := by
  cases negative with
  | false => exact .bare
  | true => exact .minus

/-- The digits behind a point without needless zeros: no zero is the last one, unless it is the only one. -/
structure Trimmed (fraction : List Char) : Prop where
  digits : Digits fraction
  ne_nil : fraction ≠ []
  last : fraction.getLast? = some '0' → fraction = ['0']

/-- Digits on both sides of a point. -/
inductive Plain : Numeral → List Char → Prop
  | intro (negative : Bool) {whole fraction : List Char} : Digits whole → whole ≠ [] → Trimmed fraction →
      Plain ⟨negative, whole, fraction, 0⟩ (minus negative ++ (whole ++ '.' :: fraction))

/-- One digit before the point, and an exponent of two digits at least behind its sign. -/
inductive Scientific : Numeral → List Char → Prop
  | intro (negative : Bool) {d : Char} {fraction ds : List Char} (below : Bool) : d.isDigit = true →
      Trimmed fraction → Digits ds → 2 ≤ ds.length →
      Scientific
        ⟨negative, [d], fraction, if below then -(Nat.ofDigitChars 10 ds 0 : Int) else Nat.ofDigitChars 10 ds 0⟩
        (minus negative ++ (([d] ++ '.' :: fraction) ++ 'e' :: (if below then '-' else '+') :: ds))

variable {n : Numeral} {text ds : List Char}

theorem Plain.spells (h : Plain n text) : n.Spells text := by
  cases h with
  | @intro negative whole fraction hwhole hne hfraction =>
      have hspells := Numeral.Spells.intro (signed_minus negative) (.mixed hwhole hne hfraction.digits) .absent
      rwa [List.append_nil] at hspells

theorem Scientific.spells (h : Scientific n text) : n.Spells text := by
  cases h with
  | @intro negative d fraction ds below hd hfraction hds hlength =>
      have hone : Digits [d] := fun c hc => List.mem_singleton.mp hc ▸ hd
      have hne : ds ≠ [] := fun hnil => by rw [hnil] at hlength; exact absurd hlength (by decide)
      have hmantissa : Mantissa [d] fraction ([d] ++ '.' :: fraction) :=
        .mixed hone (List.cons_ne_nil _ _) hfraction.digits
      refine .intro (signed_minus negative) hmantissa ?_
      cases below with
      | false => exact .given (.inl rfl) .plus hds hne
      | true => exact .given (.inl rfl) .minus hds hne

theorem Digits.notMem (h : Digits ds) {c : Char} (hc : c.isDigit = false) : c ∉ ds := fun hmem => by
  rw [h c hmem] at hc
  cases hc

theorem Plain.notMem (h : Plain n text) : 'e' ∉ text := by
  cases h with
  | intro negative hwhole _ hfraction =>
      intro hmem
      rcases List.mem_append.mp hmem with hminus | hmem
      · cases negative with
        | false => cases hminus
        | true => exact absurd (List.mem_singleton.mp hminus) (by decide)
      rcases List.mem_append.mp hmem with hmem | hmem
      · exact hwhole.notMem rfl hmem
      rcases List.mem_cons.mp hmem with hpoint | hmem
      · exact absurd hpoint (by decide)
      · exact hfraction.digits.notMem rfl hmem

theorem Scientific.mem (h : Scientific n text) : 'e' ∈ text := by
  cases h with
  | intro => exact List.mem_append_right _ (List.mem_append_right _ List.mem_cons_self)

end ArrayBridge.Decimal
