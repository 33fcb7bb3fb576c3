import ArrayBridge.Proofs.Binary64
import ArrayBridge.Proofs.Ratio

/-!
What the words of doubles and singles stand for, by the arithmetic of their formats.
-/
namespace ArrayBridge

/-- A format of floating-point words: the bits below the sign, those of a mantissa, and the exponent of the smallest
numbers. -/
structure FloatFormat where
  width : ℕ
  precision : ℕ
  least : ℤ

namespace FloatFormat

def double : FloatFormat := ⟨63, 53, -1074⟩

def single : FloatFormat := ⟨31, 24, -149⟩

/-- What a sign adds to a word. -/
def sign (f : FloatFormat) (negative : Bool) : ℕ := if negative then 2 ^ f.width else 0

/-- The first word beyond those of the finite magnitudes. -/
def top (f : FloatFormat) : ℕ := 2 ^ f.width - 2 ^ (f.precision - 1)

/-- The words of the finite numbers, by sign and magnitude. The exponent counts on from the least one; above it, the first
bit of the mantissa is not stored but moves the exponent on by one. -/
inductive Finite (f : FloatFormat) (negative : Bool) : ℕ → ℚ → Prop
  | intro {m k : ℕ} : m < 2 ^ f.precision → k = 0 ∨ 2 ^ (f.precision - 1) ≤ m →
      k * 2 ^ (f.precision - 1) + m < f.top →
      Finite f negative (k * 2 ^ (f.precision - 1) + m + f.sign negative) (m * 2 ^ (k + f.least))

def Infinite (f : FloatFormat) (negative : Bool) (word : ℕ) : Prop := word = f.top + f.sign negative

def NaN (f : FloatFormat) (word : ℕ) : Prop := f.top < word % 2 ^ f.width

variable {f : FloatFormat} {negative : Bool} {v w : ℚ}

/-- Of two forms of one number none has the greater exponent. -/
theorem exponent_le {p m n j k : ℕ} (hp : 0 < p) (hm : m < 2 ^ p) (hn : k = 0 ∨ 2 ^ (p - 1) ≤ n)
    (h : m * 2 ^ j = n * 2 ^ k) : k ≤ j := by
  refine Nat.le_of_not_lt fun hlt => ?_
  obtain ⟨d, rfl⟩ := Nat.exists_eq_add_of_lt hlt
  have hlead : 2 ^ (p - 1) ≤ n := hn.resolve_left (by omega)
  have hpow : 2 ^ p = 2 ^ (p - 1) * 2 := by rw [← pow_succ, Nat.sub_add_cancel hp]
  have hsplit : n * 2 ^ (j + d + 1) = n * 2 ^ (d + 1) * 2 ^ j := by ring
  rw [hsplit] at h
  have hsame : m = n * 2 ^ (d + 1) := Nat.eq_of_mul_eq_mul_right (Nat.two_pow_pos j) h
  have htwo : 2 ^ 1 ≤ 2 ^ (d + 1) := Nat.pow_le_pow_right two_pos (Nat.le_add_left 1 d)
  have hle : 2 ^ (p - 1) * 2 ≤ n * 2 ^ (d + 1) := Nat.mul_le_mul hlead htwo
  omega

/-- A number has one word only. -/
theorem Finite.unique (hf : 0 < f.precision) {a b : ℕ} (ha : f.Finite negative a w) (hb : f.Finite negative b w) :
    a = b := by
  cases ha with
  | @intro m j hm hmlead _ =>
      generalize hw : (m : ℚ) * 2 ^ (j + f.least) = w at hb
      cases hb with
      | @intro n k hn hnlead _ =>
          have hscale : (2 : ℚ) ^ f.least ≠ 0 := zpow_ne_zero _ two_ne_zero
          rw [zpow_add₀ two_ne_zero, zpow_add₀ two_ne_zero, ← mul_assoc, ← mul_assoc, mul_left_inj' hscale,
            zpow_natCast, zpow_natCast] at hw
          have hsame : m * 2 ^ j = n * 2 ^ k := by exact_mod_cast hw
          obtain rfl := le_antisymm (exponent_le hf hn hmlead hsame.symm) (exponent_le hf hm hnlead hsame)
          obtain rfl := Nat.eq_of_mul_eq_mul_right (Nat.two_pow_pos j) hsame
          rfl

/-! A word tells its parts: the sign, and of the bits below it a mantissa and an exponent. -/

variable {s : Bool} {code c k m : ℕ}

def mantissa (f : FloatFormat) (code : ℕ) : ℕ :=
  if code < 2 ^ (f.precision - 1) then code else code % 2 ^ (f.precision - 1) + 2 ^ (f.precision - 1)

def exponent (f : FloatFormat) (code : ℕ) : ℤ := (max 1 (code / 2 ^ (f.precision - 1)) - 1 : ℕ) + f.least

theorem two_pow_precision (hf : 0 < f.precision) : 2 ^ f.precision = 2 * 2 ^ (f.precision - 1) := by
  rw [← pow_succ', Nat.sub_add_cancel hf]

theorem exists_exponent (hf : 0 < f.precision) (code : ℕ) :
    ∃ k : ℕ, f.exponent code = k + f.least ∧ code = k * 2 ^ (f.precision - 1) + f.mantissa code ∧
      f.mantissa code < 2 ^ f.precision ∧ (k = 0 ∨ 2 ^ (f.precision - 1) ≤ f.mantissa code) := by
  have hdouble := two_pow_precision hf
  have hpos : 0 < 2 ^ (f.precision - 1) := Nat.two_pow_pos _
  rw [exponent, mantissa]
  generalize 2 ^ (f.precision - 1) = unit at hdouble hpos ⊢
  rcases Nat.lt_or_ge code unit with hlt | hge
  · rw [if_pos hlt, Nat.div_eq_of_lt hlt]
    exact ⟨0, rfl, by omega, by omega, .inl rfl⟩
  · obtain ⟨q, hq⟩ : ∃ q, code / unit = q + 1 := Nat.exists_eq_add_of_le' (Nat.div_pos hge hpos)
    have hmod := Nat.mod_lt code hpos
    have hparts : q * unit + (code % unit + unit) = code :=
      calc q * unit + (code % unit + unit) = (q + 1) * unit + code % unit := by ring
        _ = code / unit * unit + code % unit := by rw [hq]
        _ = code := Nat.div_add_mod' code unit
    rw [if_neg (Nat.not_lt.mpr hge), hq]
    refine ⟨q, ?_, hparts.symm, by omega, .inr (Nat.le_add_left _ _)⟩
    rw [Nat.max_eq_right (Nat.le_add_left 1 q), Nat.add_sub_cancel]

theorem parts_eq (hf : 0 < f.precision) (hm : m < 2 ^ f.precision) (hlead : k = 0 ∨ 2 ^ (f.precision - 1) ≤ m) :
    f.mantissa (k * 2 ^ (f.precision - 1) + m) = m ∧ f.exponent (k * 2 ^ (f.precision - 1) + m) = k + f.least := by
  have hdouble := two_pow_precision hf
  rw [mantissa, exponent]
  have hpos : 0 < 2 ^ (f.precision - 1) := Nat.two_pow_pos _
  generalize 2 ^ (f.precision - 1) = unit at hdouble hpos hlead ⊢
  rcases Nat.lt_or_ge m unit with hlt | hge
  · obtain rfl := hlead.resolve_right (Nat.not_le.mpr hlt)
    rw [Nat.zero_mul, Nat.zero_add, if_pos hlt, Nat.div_eq_of_lt hlt]
    exact ⟨rfl, rfl⟩
  · obtain ⟨r, rfl⟩ := Nat.exists_eq_add_of_le' hge
    have hr : r < unit := by omega
    have hcode : k * unit + (r + unit) = r + unit * (k + 1) := by ring
    rw [hcode, if_neg (by rw [Nat.mul_succ]; omega), Nat.add_mul_mod_self_left, Nat.mod_eq_of_lt hr,
      Nat.add_mul_div_left _ _ hpos, Nat.div_eq_of_lt hr, Nat.zero_add, Nat.max_eq_right (Nat.le_add_left 1 k),
      Nat.add_sub_cancel]
    exact ⟨rfl, rfl⟩

/-- Words with the same sign bit are told apart by the bits below it. -/
theorem sign_cancel (hcode : code < 2 ^ f.width) (hc : c < 2 ^ f.width)
    (h : code + f.sign s = c + f.sign negative) : s = negative ∧ code = c := by
  rcases s with - | - <;> rcases negative with - | - <;>
    simp only [sign, Bool.false_eq_true, if_true, if_false, Nat.add_zero, Nat.add_right_cancel_iff] at h
  · exact ⟨rfl, h⟩
  · omega
  · omega
  · exact ⟨rfl, h⟩

theorem finite_iff (hf : 0 < f.precision) (hcode : code < 2 ^ f.width) :
    f.Finite negative (code + f.sign s) v ↔
      s = negative ∧ code < f.top ∧ f.mantissa code * 2 ^ f.exponent code = v := by
  constructor
  · intro h
    generalize hword : code + f.sign s = word at h
    cases h with
    | @intro m k hm hlead htop =>
        obtain ⟨rfl, rfl⟩ := sign_cancel hcode (htop.trans_le (Nat.sub_le _ _)) hword
        obtain ⟨hmantissa, hexponent⟩ := parts_eq hf hm hlead
        exact ⟨rfl, htop, by rw [hmantissa, hexponent]⟩
  · rintro ⟨rfl, htop, rfl⟩
    obtain ⟨k, hexponent, hparts, hm, hlead⟩ := exists_exponent hf code
    rw [hexponent]
    conv => arg 3; rw [hparts]
    exact .intro hm hlead (hparts ▸ htop)

theorem infinite_iff (hf : f.top < 2 ^ f.width) (hcode : code < 2 ^ f.width) :
    f.Infinite negative (code + f.sign s) ↔ s = negative ∧ code = f.top := by
  constructor
  · exact sign_cancel hcode hf
  · rintro ⟨rfl, rfl⟩
    rfl

end FloatFormat

end ArrayBridge
