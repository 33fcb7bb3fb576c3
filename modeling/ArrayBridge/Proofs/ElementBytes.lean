import ArrayBridge.Proofs.Binary32
import ArrayBridge.Proofs.NumericArray
import Mathlib.Data.Nat.Digits.Defs

/-!
What the bytes of one element are, told from the bytes alone.
-/
namespace ArrayBridge

/-- The number with these digits to base 256, least significant first. -/
def little (word : Bytes) : ℕ := Nat.ofDigits 256 (word.map UInt8.toNat)

/-- Characters of two bytes as single bytes: those beyond one byte become `?`. -/
def narrowed : Bytes → Bytes
  | [] | [_] => []
  | low :: high :: rest => (if high = 0 then low else 63) :: narrowed rest

/-- The bytes of a float, and the format that they are in. -/
inductive FloatWord : ElementType → FloatFormat → Bytes → Prop
  | double {word : Bytes} : word.length = 8 → FloatWord .double .double word
  | single {word : Bytes} : word.length = 4 → FloatWord .single .single word

/-- The bytes of a float that is not a number. -/
inductive NotANumber (t : ElementType) (word : Bytes) : Prop
  | intro {f : FloatFormat} : FloatWord t f word → f.NaN (little word) → NotANumber t word

/-- The bytes of a whole number. A signed one is in two's complement. -/
inductive Whole : ElementType → Bytes → ℤ → Prop
  | logical {b : UInt8} : Whole .logical [b] (if b = 0 then 0 else 1)
  | unsigned {t : ElementType} {n : ℕ} {word : Bytes} :
      (t, n) ∈ [(.uint8, 1), (.char, 2), (.uint16, 2), (.uint32, 4), (.uint64, 8)] → word.length = n →
      Whole t word (little word)
  | signed {t : ElementType} {n : ℕ} {word : Bytes} :
      (t, n) ∈ [(.int8, 1), (.int16, 2), (.int32, 4), (.int64, 8)] → word.length = n →
      Whole t word ((little word : ℤ).bmod (256 ^ n))

/-- The double that the bytes of an element are read as: a whole number becomes the nearest one. -/
inductive ReadsDouble : ElementType → Bytes → Binary64 → Prop
  | double {word : Bytes} {x : Binary64} : word.length = 8 → x.bits.toNat = little word → ReadsDouble .double word x
  | single {word : Bytes} {x : Binary64} : word.length = 4 → Widened .single (little word) x.bits.toNat →
      ReadsDouble .single word x
  | nan {word : Bytes} {x : Binary64} : NotANumber .single word → FloatFormat.double.NaN x.bits.toNat →
      ReadsDouble .single word x
  | whole {t : ElementType} {word : Bytes} {k : ℤ} {x : Binary64} : Whole t word k →
      Binary64.Nearest (k < 0) |(k : ℚ)| x → ReadsDouble t word x

/-- The signed word that they are read as: a fraction is dropped, a float beyond the range becomes its end, and a whole
number wraps around. -/
inductive ReadsInt64 (t : ElementType) (word : Bytes) (y : Int64) : Prop
  | nan : NotANumber t word → y = 0 → ReadsInt64 t word y
  | infinite {f : FloatFormat} {negative : Bool} : FloatWord t f word → f.Infinite negative (little word) →
      y.toInt = (if negative then -2 ^ 63 else 2 ^ 63 - 1) → ReadsInt64 t word y
  | finite {f : FloatFormat} {negative : Bool} {v : ℚ} : FloatWord t f word → f.Finite negative (little word) v →
      y.toInt = max (-2 ^ 63) (min (2 ^ 63 - 1) (if negative then -⌊v⌋ else ⌊v⌋)) → ReadsInt64 t word y
  | whole {k : ℤ} : Whole t word k → y.toInt = k.bmod (2 ^ 64) → ReadsInt64 t word y

/-- The bytes of the double that a number becomes: that of the same value, or for a whole number the one nearest to what
a signed word of 64 bits keeps of it. -/
inductive Becomes : ElementType → Bytes → Bytes → Prop
  | double {word : Bytes} : word.length = 8 → ¬FloatFormat.double.NaN (little word) → Becomes .double word word
  | single {word out : Bytes} : word.length = 4 → out.length = 8 → Widened .single (little word) (little out) →
      Becomes .single word out
  | whole {t : ElementType} {word out : Bytes} {k : ℤ} {x : Binary64} : t ≠ .char → Whole t word k → out.length = 8 →
      Binary64.Nearest (k.bmod (2 ^ 64) < 0) |((k.bmod (2 ^ 64) : ℤ) : ℚ)| x → little out = x.bits.toNat →
      Becomes t word out

variable {t : ElementType} {word out : Bytes} {k : ℤ} {n : ℕ}

namespace Bytes

theorem toNat_eq_little (b : Bytes) : toNat b = little b := by
  induction b with
  | nil => rfl
  | cons x b ih => rw [toNat, ih, little, little, List.map_cons, Nat.ofDigits_cons]

theorem eq_of_little {a b : Bytes} (hlen : a.length = b.length) (h : little a = little b) : a = b := by
  rw [← toNat_eq_little, ← toNat_eq_little] at h
  rw [← ofNat_toNat a, ← ofNat_toNat b, hlen, h]

theorem toInt_eq_bmod (h : word.length = n) : toInt word = (little word : ℤ).bmod (256 ^ n) := by
  obtain ⟨hlow, hhigh⟩ := h ▸ toInt_fits word
  have hself : (toInt word).bmod (256 ^ n) = toInt word :=
    Int.bmod_eq_of_le_mul_two (by rw [Int.mul_comm]; exact hlow) (by rw [Int.mul_comm]; exact hhigh)
  rw [← hself, ← toNat_eq_little, toInt]
  split
  · rfl
  · rw [h]
    exact Int.sub_bmod_right _ _

theorem exists_little {v : ℕ} (h : v < 256 ^ n) : ∃ b : Bytes, b.length = n ∧ little b = v :=
  ⟨ofNat n v, length_ofNat n v, (toNat_eq_little _).symm.trans (toNat_ofNat_of_lt h)⟩

end Bytes

/-! The elements that are loaded from the bytes. -/

theorem toNat_load_double (h : word.length = 8) : (ElementType.load .double word).bits.toNat = little word :=
  (UInt64.toNat_ofNat_of_lt' (Bytes.toNat_lt_of_length h)).trans (Bytes.toNat_eq_little word)

theorem toNat_load_single (h : word.length = 4) : (ElementType.load .single word).bits.toNat = little word :=
  (UInt32.toNat_ofNat_of_lt' (Bytes.toNat_lt_of_length h)).trans (Bytes.toNat_eq_little word)

theorem NotANumber.double_iff (hlen : word.length = 8) :
    NotANumber .double word ↔ (ElementType.load .double word).isNaN = true := by
  rw [← Binary64.nan_iff, toNat_load_double hlen]
  refine ⟨?_, .intro (.double hlen)⟩
  rintro ⟨⟨-⟩, hnan⟩
  exact hnan

theorem NotANumber.single_iff (hlen : word.length = 4) :
    NotANumber .single word ↔ (ElementType.load .single word).isNaN = true := by
  rw [← Binary32.nan_iff, toNat_load_single hlen]
  refine ⟨?_, .intro (.single hlen)⟩
  rintro ⟨⟨-⟩, hnan⟩
  exact hnan

theorem NotANumber.iff_isNaN (hfloat : t.isFloat = true) (hlen : word.length = t.size) :
    NotANumber t word ↔ (t.toDouble (t.load word)).isNaN = true := by
  cases t with
  | double => exact double_iff hlen
  | single =>
      rw [ElementType.toDouble, Binary32.isNaN_toBinary64]
      exact single_iff hlen
  | _ => cases hfloat

theorem NotANumber.length_eq (h : NotANumber t word) : t.isFloat = true ∧ word.length = t.size := by
  rcases h with ⟨hlen | hlen, -⟩
  · exact ⟨rfl, hlen⟩
  · exact ⟨rfl, hlen⟩

theorem Whole.loads (h : Whole t word k) :
    t.isFloat = false ∧ word.length = t.size ∧ t.number (t.load word) = k := by
  cases h with
  | @logical b =>
      refine ⟨rfl, rfl, ?_⟩
      by_cases hb : b = 0
      · rw [hb]
        rfl
      · have hload : ElementType.load .logical [b] = true :=
          decide_eq_true fun hzero => hb (UInt8.toNat_inj.mp (Nat.eq_zero_of_add_eq_zero_right hzero))
        rw [if_neg hb, hload]
        rfl
  | unsigned hwidth hlen =>
      rw [← Bytes.toNat_eq_little]
      simp only [List.mem_cons, Prod.mk.injEq, List.not_mem_nil, or_false] at hwidth
      have hlt := Bytes.toNat_lt_of_length hlen
      rcases hwidth with ⟨rfl, rfl⟩ | ⟨rfl, rfl⟩ | ⟨rfl, rfl⟩ | ⟨rfl, rfl⟩ | ⟨rfl, rfl⟩
      · exact ⟨rfl, hlen, congrArg Int.ofNat (UInt8.toNat_ofNat_of_lt' hlt)⟩
      · exact ⟨rfl, hlen, congrArg Int.ofNat (UInt16.toNat_ofNat_of_lt' hlt)⟩
      · exact ⟨rfl, hlen, congrArg Int.ofNat (UInt16.toNat_ofNat_of_lt' hlt)⟩
      · exact ⟨rfl, hlen, congrArg Int.ofNat (UInt32.toNat_ofNat_of_lt' hlt)⟩
      · exact ⟨rfl, hlen, congrArg Int.ofNat (UInt64.toNat_ofNat_of_lt' hlt)⟩
  | signed hwidth hlen =>
      rw [← Bytes.toInt_eq_bmod hlen]
      simp only [List.mem_cons, Prod.mk.injEq, List.not_mem_nil, or_false] at hwidth
      rcases hwidth with ⟨rfl, rfl⟩ | ⟨rfl, rfl⟩ | ⟨rfl, rfl⟩ | ⟨rfl, rfl⟩
      · obtain ⟨hlow, hhigh⟩ : -2 ^ 7 ≤ Bytes.toInt word ∧ Bytes.toInt word < 2 ^ 7 := Bytes.toInt_bounds hlen rfl
        exact ⟨rfl, hlen, Int8.toInt_ofInt_of_le hlow hhigh⟩
      · obtain ⟨hlow, hhigh⟩ : -2 ^ 15 ≤ Bytes.toInt word ∧ Bytes.toInt word < 2 ^ 15 := Bytes.toInt_bounds hlen rfl
        exact ⟨rfl, hlen, Int16.toInt_ofInt_of_le hlow hhigh⟩
      · obtain ⟨hlow, hhigh⟩ : -2 ^ 31 ≤ Bytes.toInt word ∧ Bytes.toInt word < 2 ^ 31 := Bytes.toInt_bounds hlen rfl
        exact ⟨rfl, hlen, Int32.toInt_ofInt_of_le hlow hhigh⟩
      · obtain ⟨hlow, hhigh⟩ : -2 ^ 63 ≤ Bytes.toInt word ∧ Bytes.toInt word < 2 ^ 63 := Bytes.toInt_bounds hlen rfl
        exact ⟨rfl, hlen, Int64.toInt_ofInt_of_le hlow hhigh⟩

theorem exists_whole (hfloat : t.isFloat = false) (hlen : word.length = t.size) :
    ∃ k, Whole t word k := by
  cases t with
  | double | single => cases hfloat
  | logical =>
      obtain ⟨b, rfl⟩ := List.length_eq_one_iff.mp hlen
      exact ⟨_, .logical⟩
  | char | uint8 | uint16 | uint32 | uint64 => exact ⟨_, .unsigned (by decide) hlen⟩
  | int8 | int16 | int32 | int64 => exact ⟨_, .signed (by decide) hlen⟩

/-! How an element is read. -/

theorem toDouble_eq_ofInt (hfloat : t.isFloat = false) (v : t.Value) : t.toDouble v = .ofInt (t.number v) := by
  cases t with
  | double | single => cases hfloat
  | _ => rfl

theorem toInt64_eq_ofInt (hfloat : t.isFloat = true) (v : t.Value) : t.toInt64 v = .ofInt (t.toDouble v).toInt64 := by
  cases t with
  | double | single => rfl
  | _ => cases hfloat

theorem toInt_ofInt_toInt64 (x : Binary64) : (Int64.ofInt x.toInt64).toInt = x.toInt64 :=
  Int64.toInt_ofInt_of_le x.toInt64_bounds.1 x.toInt64_bounds.2

theorem readsDouble (hlen : word.length = t.size) : ReadsDouble t word (t.toDouble (t.load word)) := by
  cases hfloat : t.isFloat with
  | false =>
      obtain ⟨k, hwhole⟩ := exists_whole hfloat hlen
      refine .whole hwhole ?_
      obtain ⟨-, -, hnumber⟩ := hwhole.loads
      rw [toDouble_eq_ofInt hfloat, hnumber]
      exact Binary64.nearest_ofInt k
  | true =>
      cases t with
      | double => exact .double hlen (toNat_load_double hlen)
      | single =>
          by_cases hnan : (ElementType.load .single word).isNaN = true
          · refine .nan ((NotANumber.single_iff hlen).mpr hnan) (Binary64.nan_iff.mpr ?_)
            rw [ElementType.toDouble, Binary32.isNaN_toBinary64, hnan]
          · exact .single hlen (toNat_load_single hlen ▸ Binary32.widened_iff.mpr ⟨hnan, rfl⟩)
      | _ => cases hfloat

theorem readsInt64_of_widened {f : FloatFormat} {x : Binary64} (hf : FloatWord t f word)
    (h : Widened f (little word) x.bits.toNat) : ReadsInt64 t word (.ofInt x.toInt64) := by
  cases h with
  | finite hword hdouble => exact .finite hf hword ((toInt_ofInt_toInt64 x).trans (x.toInt64_of_finite hdouble))
  | infinite hword hdouble => exact .infinite hf hword ((toInt_ofInt_toInt64 x).trans (x.toInt64_of_infinite hdouble))

theorem readsInt64 (hlen : word.length = t.size) : ReadsInt64 t word (t.toInt64 (t.load word)) := by
  cases hfloat : t.isFloat with
  | false =>
      obtain ⟨k, hwhole⟩ := exists_whole hfloat hlen
      refine .whole hwhole ?_
      obtain ⟨-, -, hnumber⟩ := hwhole.loads
      rw [ElementType.toInt_toInt64, hnumber]
  | true =>
      by_cases hnan : NotANumber t word
      · have hzero := Binary64.toInt64_of_nan (Binary64.nan_iff.mpr ((NotANumber.iff_isNaN hfloat hlen).mp hnan))
        refine .nan hnan ?_
        rw [toInt64_eq_ofInt hfloat, hzero]
        rfl
      · rw [toInt64_eq_ofInt hfloat]
        cases t with
        | double =>
            refine readsInt64_of_widened (.double hlen) ?_
            rw [← toNat_load_double hlen]
            exact Binary64.widened (mt (NotANumber.double_iff hlen).mpr hnan)
        | single =>
            refine readsInt64_of_widened (.single hlen) ?_
            rw [← toNat_load_single hlen]
            exact Binary32.widened_iff.mpr ⟨mt (NotANumber.single_iff hlen).mpr hnan, rfl⟩
        | _ => cases hfloat

theorem Becomes.length_eq (h : Becomes t word out) : t ≠ .char ∧ word.length = t.size := by
  cases h with
  | double hlen _ | single hlen _ _ => exact ⟨by decide, hlen⟩
  | whole hchar hwhole _ _ _ => exact ⟨hchar, hwhole.loads.2.1⟩

theorem becomes_iff_of_isFloat (hfloat : t.isFloat = true) (hlen : word.length = t.size) :
    Becomes t word out ↔
      ¬NotANumber t word ∧ out.length = 8 ∧ little out = (t.toDouble (t.load word)).bits.toNat := by
  rw [NotANumber.iff_isNaN hfloat hlen]
  cases t with
  | double =>
      rw [ElementType.toDouble, ← Binary64.nan_iff, toNat_load_double hlen]
      constructor
      · rintro (⟨_, hnumber⟩ | _ | ⟨_, hwhole, _⟩)
        · exact ⟨hnumber, hlen, rfl⟩
        · exact absurd hwhole.loads.1 (by decide)
      · rintro ⟨hnumber, hout, hsame⟩
        obtain rfl := Bytes.eq_of_little (hout.trans hlen.symm) hsame
        exact .double hlen hnumber
  | single =>
      rw [ElementType.toDouble, Binary32.isNaN_toBinary64, and_left_comm, ← Binary32.widened_iff, toNat_load_single hlen]
      constructor
      · rintro (_ | ⟨_, hout, hwidened⟩ | ⟨_, hwhole, _⟩)
        · exact ⟨hout, hwidened⟩
        · exact absurd hwhole.loads.1 (by decide)
      · rintro ⟨hout, hwidened⟩
        exact .single hlen hout hwidened
  | _ => cases hfloat

theorem becomes_iff_of_not_isFloat (hfloat : t.isFloat = false) (hchar : t ≠ .char) (hlen : word.length = t.size) :
    Becomes t word out ↔
      out.length = 8 ∧ little out = (Binary64.ofInt (t.toInt64 (t.load word)).toInt).bits.toNat := by
  rw [ElementType.toInt_toInt64]
  constructor
  · intro h
    cases h with
    | double | single => cases hfloat
    | whole hchar hwhole hout hnearest hsame =>
        obtain ⟨-, -, hnumber⟩ := hwhole.loads
        rw [hnumber, hsame, hnearest.unique (Binary64.nearest_ofInt _)]
        exact ⟨hout, rfl⟩
  · rintro ⟨hout, hsame⟩
    obtain ⟨k, hwhole⟩ := exists_whole hfloat hlen
    obtain ⟨-, -, hnumber⟩ := hwhole.loads
    rw [hnumber] at hsame
    exact .whole hchar hwhole hout (Binary64.nearest_ofInt _) hsame

theorem narrowUnit_load (low high : UInt8) :
    narrowUnit (ElementType.load .char [low, high]).toNat = if high = 0 then low else 63 := by
  have hlow := low.toNat_lt
  have hhigh := high.toNat_lt
  have hunit : (ElementType.load .char [low, high]).toNat = low.toNat + 256 * high.toNat :=
    UInt16.toNat_ofNat_of_lt' (by change low.toNat + 256 * (high.toNat + 256 * 0) < 2 ^ 16; omega)
  rw [hunit, narrowUnit]
  by_cases h : high = 0
  · subst h
    rw [if_pos rfl, UInt8.toNat_zero, Nat.mul_zero, Nat.add_zero, if_pos (by omega), UInt8.ofNat_toNat]
  · have hpos : high.toNat ≠ 0 := fun hzero => h (UInt8.toNat_inj.mp hzero)
    rw [if_neg h, if_neg (by omega)]

theorem narrowed_eq (data : Bytes) :
    ((data.chunks 2).map (ElementType.load .char)).map (fun u => narrowUnit u.toNat) = narrowed data := by
  induction data using narrowed.induct with
  | case1 => rfl
  | case2 low =>
      rw [Bytes.chunks, List.length_singleton]
      rfl
  | case3 low high rest ih =>
      have hlength : (low :: high :: rest).length / 2 = rest.length / 2 + 1 := by
        rw [List.length_cons, List.length_cons]
        omega
      rw [Bytes.chunks, hlength, narrowed, ← ih, ← narrowUnit_load]
      rfl

theorem charBytes_eq (dims : List ℕ) (data : Bytes) :
    NumericArray.charBytes ⟨.char, dims, data⟩ = some (narrowed data) :=
  congrArg some (narrowed_eq data)

end ArrayBridge
