import ArrayBridge.Proofs.Binary64.Word

/-!
The double nearest to a number, a half going to the even neighbour.
-/
namespace ArrayBridge.Binary64

open FloatFormat (double)

/-- The exponent of the last bit of `v` for which a double has room. -/
def lastExponent (v : ℚ) : ℤ := max (Int.log 2 v - 52) (-1074)

/-- `w` is the magnitude `v` rounded to that bit. -/
def Rounds (v w : ℚ) : Prop := ∃ k : ℤ, NearestEven (v / 2 ^ lastExponent v) k ∧ w = k * 2 ^ lastExponent v

/-- The double of a sign and the rounded magnitude, or of that sign and infinite if this is too large. -/
inductive Nearest (negative : Bool) (v : ℚ) (x : Binary64) : Prop
  | finite {w : ℚ} : Rounds v w → w < 2 ^ 1024 → double.Finite negative x.bits.toNat w → Nearest negative v x
  | infinite {w : ℚ} : Rounds v w → 2 ^ 1024 ≤ w → double.Infinite negative x.bits.toNat → Nearest negative v x

variable {negative : Bool} {v w w' : ℚ} {x y : Binary64} {r : Ratio}

theorem Rounds.unique (h : Rounds v w) (h' : Rounds v w') : w = w' := by
  obtain ⟨k, hk, rfl⟩ := h
  obtain ⟨j, hj, rfl⟩ := h'
  rw [hk.unique hj]

theorem Nearest.unique (hx : Nearest negative v x) (hy : Nearest negative v y) : x = y := by
  apply eq_of_bits
  cases hx with
  | finite hround hlt hfinite =>
      cases hy with
      | finite hround' _ hfinite' =>
          obtain rfl := hround.unique hround'
          exact hfinite.unique (by decide) hfinite'
      | infinite hround' hle _ =>
          obtain rfl := hround.unique hround'
          exact absurd hlt (not_lt.mpr hle)
  | infinite hround hle hinfinite =>
      cases hy with
      | finite hround' hlt _ =>
          obtain rfl := hround.unique hround'
          exact absurd hlt (not_lt.mpr hle)
      | infinite _ _ hinfinite' => exact Eq.trans hinfinite hinfinite'.symm

theorem two_zpow_pos (e : ℤ) : (0 : ℚ) < 2 ^ e := zpow_pos two_pos e

theorem two_zpow_add (d e : ℤ) : (2 : ℚ) ^ (d + e) = 2 ^ d * 2 ^ e := zpow_add₀ two_ne_zero d e

/-! The scaled magnitude has 53 bits before the point, or fewer at the least exponent. -/

theorem div_le_of_lt (h : v < 2 ^ (Int.log 2 v + 1)) : v / 2 ^ lastExponent v ≤ ((2 ^ 53 : ℕ) : ℤ) := by
  have hlast : Int.log 2 v + 1 ≤ 53 + lastExponent v := by
    rw [lastExponent]
    omega
  rw [div_le_iff₀ (two_zpow_pos _)]
  calc v ≤ 2 ^ (Int.log 2 v + 1) := h.le
    _ ≤ 2 ^ (53 + lastExponent v) := zpow_le_zpow_right₀ one_le_two hlast
    _ = ((2 ^ 53 : ℕ) : ℤ) * 2 ^ lastExponent v := by rw [two_zpow_add]; norm_num

theorem le_div_of_le (h : 2 ^ Int.log 2 v ≤ v) (hlast : lastExponent v ≠ -1074) :
    ((2 ^ 52 : ℕ) : ℤ) ≤ v / 2 ^ lastExponent v := by
  have hlog : Int.log 2 v = 52 + lastExponent v := by
    rw [lastExponent] at hlast ⊢
    omega
  rw [le_div_iff₀ (two_zpow_pos _)]
  calc (((2 ^ 52 : ℕ) : ℤ) : ℚ) * 2 ^ lastExponent v = 2 ^ (52 + lastExponent v) := by rw [two_zpow_add]; norm_num
    _ = 2 ^ Int.log 2 v := by rw [hlog]
    _ ≤ v := h

theorem codeOf_eq (hnum : 0 < r.num) (hden : 0 < r.den) :
    ∃ k : ℕ, NearestEven (r.toRat / 2 ^ lastExponent r.toRat) k ∧ k ≤ 2 ^ 53 ∧
      (lastExponent r.toRat = -1074 ∨ 2 ^ 52 ≤ k) ∧
      codeOf r = min double.top ((lastExponent r.toRat + 1074).toNat * 2 ^ 52 + k) := by
  obtain ⟨hlow, hhigh⟩ := Ratio.log2_bounds hnum hden
  have hlog : Int.log 2 r.toRat = r.log2 :=
    log_eq_of_bounds one_lt_two (by exact_mod_cast hlow) (by exact_mod_cast hhigh)
  have hround := Ratio.round_nearest (Ratio.den_divPow_pos hden two_pos (lastExponent r.toRat))
  rw [Ratio.toRat_divPow r two_pos, Nat.cast_ofNat] at hround
  refine ⟨_, hround, ?_, ?_, ?_⟩
  · exact Int.ofNat_le.mp (hround.le_of_ge (div_le_of_lt (hlog ▸ hhigh)))
  · by_cases hlast : lastExponent r.toRat = -1074
    · exact .inl hlast
    · exact .inr (Int.ofNat_le.mp (hround.le_of_le (le_div_of_le (hlog ▸ hlow) hlast)))
  · rw [codeOf, if_neg hnum.ne', lastExponent, hlog]
    rfl

/-- A rounded coefficient as a mantissa of 53 bits: the one that has a bit more is a power of two. -/
theorem exists_mantissa {q : ℤ} (hq : -1074 ≤ q) {k : ℕ} (hk : k ≤ 2 ^ 53) (hlead : q = -1074 ∨ 2 ^ 52 ≤ k) :
    ∃ m j : ℕ, m < 2 ^ 53 ∧ (j = 0 ∨ 2 ^ 52 ≤ m) ∧ (q + 1074).toNat * 2 ^ 52 + k = j * 2 ^ 52 + m ∧
      (k : ℚ) * 2 ^ q = m * 2 ^ ((j : ℤ) + -1074) := by
  have hexponent : (((q + 1074).toNat : ℕ) : ℤ) + -1074 = q := by omega
  rcases Nat.lt_or_eq_of_le hk with hlt | rfl
  · refine ⟨k, (q + 1074).toNat, hlt, ?_, rfl, by rw [hexponent]⟩
    exact hlead.imp (fun hleast => by omega) id
  · refine ⟨2 ^ 52, (q + 1074).toNat + 1, by norm_num, .inr le_rfl, by ring, ?_⟩
    rw [Nat.cast_add_one, add_right_comm, hexponent, zpow_add_one₀ two_ne_zero]
    norm_num
    ring

/-- A mantissa with an exponent is the word of a finite number exactly if it is below the limit. -/
theorem mantissa_lt_top_iff {m j : ℕ} (hm : m < 2 ^ 53) (hlead : j = 0 ∨ 2 ^ 52 ≤ m) :
    j * 2 ^ 52 + m < double.top ↔ (m : ℚ) * 2 ^ ((j : ℤ) + -1074) < 2 ^ 1024 := by
  have htop : double.top = 2047 * 2 ^ 52 := rfl
  have hlimit : (2 : ℚ) ^ 1024 = 2 ^ 52 * 2 ^ (972 : ℤ) := (pow_add 2 52 972)
  rw [htop]
  rcases Nat.lt_or_ge j 2046 with hj | hj
  · refine iff_of_true (by omega) ?_
    calc (m : ℚ) * 2 ^ ((j : ℤ) + -1074) < 2 ^ 53 * 2 ^ ((j : ℤ) + -1074) :=
          mul_lt_mul_of_pos_right (by exact_mod_cast hm) (two_zpow_pos _)
      _ ≤ 2 ^ 53 * 2 ^ (971 : ℤ) := mul_le_mul_of_nonneg_left (zpow_le_zpow_right₀ one_le_two (by omega)) (by norm_num)
      _ = 2 ^ 1024 := (pow_add 2 53 971).symm
  · have hm : 2 ^ 52 ≤ m := hlead.resolve_left (by omega)
    refine iff_of_false (by omega) (not_lt.mpr ?_)
    calc (2 : ℚ) ^ 1024 = 2 ^ 52 * 2 ^ (972 : ℤ) := hlimit
      _ ≤ m * 2 ^ (972 : ℤ) := mul_le_mul_of_nonneg_right (by exact_mod_cast hm) (two_zpow_pos _).le
      _ ≤ m * 2 ^ ((j : ℤ) + -1074) :=
          mul_le_mul_of_nonneg_left (zpow_le_zpow_right₀ one_le_two (by omega)) m.cast_nonneg

theorem rounds_zero : Rounds 0 0 := by
  refine ⟨0, ?_, by rw [Int.cast_zero, zero_mul]⟩
  rw [zero_div]
  exact .zero

/-- A fraction is turned into the nearest double. -/
theorem nearest_ofRatio (negative : Bool) (hden : 0 < r.den) : Nearest negative r.toRat (ofRatio negative r) := by
  rcases Nat.eq_zero_or_pos r.num with hzero | hnum
  · have hrat : r.toRat = 0 := by rw [Ratio.toRat, hzero, Nat.cast_zero, zero_div]
    rw [hrat, ofRatio, codeOf, if_pos hzero]
    exact .finite rounds_zero (by norm_num) (finite_zero negative)
  obtain ⟨k, hk, hmost, hlead, hcode⟩ := codeOf_eq hnum hden
  obtain ⟨m, j, hm, hmlead, hword, hvalue⟩ := exists_mantissa (le_max_right _ _) hmost hlead
  have hround : Rounds r.toRat (m * 2 ^ ((j : ℤ) + -1074)) := ⟨k, hk, by rw [Int.cast_natCast, ← hvalue]; rfl⟩
  have hlimit := mantissa_lt_top_iff hm hmlead
  have htop : double.top < signBit := by decide
  have hbits : (ofRatio negative r).bits.toNat = min double.top (j * 2 ^ 52 + m) + double.sign negative := by
    rw [ofRatio, hcode, ← hword]
    exact toNat_bits_ofCode negative ((Nat.min_le_left _ _).trans_lt htop)
  rcases Nat.lt_or_ge (j * 2 ^ 52 + m) double.top with hlt | hge
  · rw [Nat.min_eq_right hlt.le] at hbits
    refine .finite hround (hlimit.mp hlt) ?_
    rw [hbits]
    exact .intro hm hmlead hlt
  · rw [Nat.min_eq_left hge] at hbits
    exact .infinite hround (not_lt.mp fun hlt => absurd (hlimit.mpr hlt) (Nat.not_lt.mpr hge)) hbits

theorem nearest_ofInt (i : ℤ) : Nearest (i < 0) |(i : ℚ)| (ofInt i) := by
  have hnearest := nearest_ofRatio (i < 0) (r := ⟨i.natAbs, 1⟩) Nat.one_pos
  rwa [Ratio.toRat_whole, Nat.cast_natAbs, Int.cast_abs] at hnearest

/-! Magnitudes on either side of those that a double has. -/

/-- Less than half of the smallest double is rounded to zero. -/
theorem nearest_zero (negative : Bool) (hnonneg : 0 ≤ v) (h : v < 2 ^ (-1075 : ℤ)) : Nearest negative v (zero negative) := by
  refine .finite (w := 0) ?_ (by norm_num) (finite_zero negative)
  rcases hnonneg.eq_or_lt with rfl | hpos
  · exact rounds_zero
  have hlog : Int.log 2 v < -1075 := (Int.lt_zpow_iff_log_lt one_lt_two hpos).mp h
  have hlast : lastExponent v = -1074 := max_eq_right (by omega)
  have hhalf : v / 2 ^ (-1074 : ℤ) < 1 / 2 := by
    rw [div_lt_iff₀ (two_zpow_pos _)]
    calc v < 2 ^ (-1075 : ℤ) := h
      _ = 2 ^ (-1 + -1074 : ℤ) := by norm_num only
      _ = 1 / 2 * 2 ^ (-1074 : ℤ) := by rw [two_zpow_add, zpow_neg_one, one_div]
  refine ⟨0, .of_near ?_, by rw [Int.cast_zero, zero_mul]⟩
  rwa [Int.cast_zero, sub_zero, hlast, abs_of_nonneg (div_nonneg hnonneg (two_zpow_pos _).le)]

/-- Rounding does not lead below the limit. -/
theorem le_of_rounds (h : Rounds v w) (hle : 2 ^ 1024 ≤ v) : 2 ^ 1024 ≤ w := by
  obtain ⟨k, hk, rfl⟩ := h
  have hpos : 0 < v := (pow_pos two_pos 1024).trans_le hle
  have hlog : 1024 ≤ Int.log 2 v := (Int.zpow_le_iff_le_log one_lt_two hpos).mp hle
  have hlast : Int.log 2 v = 52 + lastExponent v := by
    rw [lastExponent]
    omega
  have hlead := hk.le_of_le (le_div_of_le (Int.zpow_log_le_self one_lt_two hpos) (by omega))
  calc (2 : ℚ) ^ 1024 ≤ 2 ^ Int.log 2 v := zpow_le_zpow_right₀ one_le_two hlog
    _ = ((2 ^ 52 : ℕ) : ℤ) * 2 ^ lastExponent v := by rw [hlast, two_zpow_add]; norm_num
    _ ≤ k * 2 ^ lastExponent v := mul_le_mul_of_nonneg_right (by exact_mod_cast hlead) (two_zpow_pos _).le

theorem nearest_infinity (negative : Bool) (hden : 0 < r.den) (hle : 2 ^ 1024 ≤ r.toRat) :
    Nearest negative r.toRat (infinity negative) := by
  cases nearest_ofRatio negative hden with
  | finite hround hlt _ => exact absurd (le_of_rounds hround hle) (not_le.mpr hlt)
  | infinite hround hlimit _ => exact .infinite hround hlimit (toNat_bits_ofCode negative (by decide))

/-! Magnitudes that a double has. -/

/-- A multiple of the last bit is rounded to itself. -/
theorem rounds_of_eq {k : ℤ} (h : v = k * 2 ^ lastExponent v) : Rounds v v := by
  refine ⟨k, .of_near ?_, h⟩
  have hquotient : v / 2 ^ lastExponent v = k := (div_eq_iff (two_zpow_pos _).ne').mpr h
  rw [hquotient, sub_self, abs_zero]
  exact one_half_pos

/-- So is a magnitude with a mantissa of 53 bits. -/
theorem rounds_self {m : ℕ} {e : ℤ} (hm : m < 2 ^ 53) (he : -1074 ≤ e) : Rounds (m * 2 ^ e) (m * 2 ^ e) := by
  rcases Nat.eq_zero_or_pos m with rfl | hpos
  · rw [Nat.cast_zero, zero_mul]
    exact rounds_zero
  have hmantissa : (0 : ℚ) < m := by exact_mod_cast hpos
  have hlt : (m : ℚ) * 2 ^ e < (2 : ℕ) ^ (53 + e) := by
    rw [Nat.cast_ofNat, two_zpow_add]
    exact mul_lt_mul_of_pos_right (by exact_mod_cast hm) (two_zpow_pos e)
  have hlog := (Int.lt_zpow_iff_log_lt one_lt_two (mul_pos hmantissa (two_zpow_pos e))).mp hlt
  obtain ⟨d, hd⟩ := Int.eq_ofNat_of_zero_le (by rw [lastExponent]; omega : 0 ≤ e - lastExponent (m * 2 ^ e))
  refine rounds_of_eq (k := m * 2 ^ d) ?_
  calc (m : ℚ) * 2 ^ e = m * 2 ^ (d + lastExponent (m * 2 ^ e)) := by rw [← hd, sub_add_cancel]
    _ = (m * 2 ^ d : ℤ) * 2 ^ lastExponent (m * 2 ^ e) := by
      rw [two_zpow_add, zpow_natCast, ← mul_assoc]
      norm_cast

theorem Nearest.finite_of_rounds (h : Nearest negative v x) (hself : Rounds v v) (hlt : v < 2 ^ 1024) :
    double.Finite negative x.bits.toNat v := by
  cases h with
  | finite hround _ hfinite => rwa [← hself.unique hround] at hfinite
  | infinite hround hle _ => exact absurd hlt (not_lt.mpr (hself.unique hround ▸ hle))

end ArrayBridge.Binary64
