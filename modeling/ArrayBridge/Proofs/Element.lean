import ArrayBridge.Element
import Mathlib.Algebra.BigOperators.Group.List.Lemmas
import Mathlib.Algebra.BigOperators.Ring.List
import Mathlib.Algebra.GroupWithZero.Nat
import Mathlib.Algebra.Ring.Int.Defs
import Mathlib.Data.List.TakeWhile

/-!
What a counted size is: the exact product of the dimensions and the size of an element, where no product of
leading dimensions is too large to be counted.
-/
namespace ArrayBridge

/-- An array of these dimensions takes `p` bytes, and every step of counting them from the left stays
within 64 bits. -/
structure Payload (type : ElementType) (dims : List Nat) (p : Nat) : Prop where
  leading : ∀ k, (dims.take k).prod ≤ 0xFFFFFFFFFFFFFFFF
  exact : dims.prod * type.size = p
  fits : p ≤ 0xFFFFFFFFFFFFFFFF

theorem checkedMul_eq_some_iff {a b p : Nat} : checkedMul a b = some p ↔ a * b = p ∧ p ≤ maxCount := by
  unfold checkedMul
  split <;> grind

theorem checkedAdd_eq_some_iff {a b s : Nat} : checkedAdd a b = some s ↔ a + b = s ∧ s ≤ maxCount := by
  unfold checkedAdd
  split <;> grind

theorem foldlM_checkedMul_eq_some_iff {a p : Nat} {dims : List Nat} (ha : a ≤ maxCount) :
    dims.foldlM checkedMul a = some p ↔ (∀ k, a * (dims.take k).prod ≤ maxCount) ∧ a * dims.prod = p := by
  -- The fold carries the product of the dimensions it has passed.
  induction dims generalizing a with
  | nil => simp [ha]
  | cons d ds ih =>
      rw [List.foldlM_cons]
      constructor
      · intro h
        obtain ⟨c, hc, hrest⟩ := Option.bind_eq_some_iff.mp h
        obtain ⟨rfl, hle⟩ := checkedMul_eq_some_iff.mp hc
        obtain ⟨hlead, hprod⟩ := (ih hle).mp hrest
        refine ⟨fun k => ?_, by rw [List.prod_cons, ← Nat.mul_assoc, hprod]⟩
        cases k with
        | zero => simpa using ha
        | succ k => simpa [Nat.mul_assoc] using hlead k
      · rintro ⟨hlead, hprod⟩
        have hle : a * d ≤ maxCount := by simpa using hlead 1
        refine Option.bind_eq_some_iff.mpr ⟨a * d, checkedMul_eq_some_iff.mpr ⟨rfl, hle⟩, ?_⟩
        refine (ih hle).mpr ⟨fun k => ?_, ?_⟩
        · simpa [Nat.mul_assoc] using hlead (k + 1)
        · rw [← hprod, List.prod_cons, Nat.mul_assoc]

theorem elementCount_eq_some_iff {dims : List Nat} {n : Nat} :
    elementCount dims = some n ↔ (∀ k, (dims.take k).prod ≤ maxCount) ∧ dims.prod = n := by
  have h := @foldlM_checkedMul_eq_some_iff 1 n dims (by decide)
  simpa only [elementCount, Nat.one_mul] using h

theorem payloadSize_eq_some_iff {type : ElementType} {dims : List Nat} {p : Nat} :
    payloadSize type dims = some p ↔ Payload type dims p := by
  rw [payloadSize, Option.bind_eq_some_iff]
  constructor
  · rintro ⟨n, hn, hp⟩
    obtain ⟨hlead, rfl⟩ := elementCount_eq_some_iff.mp hn
    obtain ⟨hexact, hle⟩ := checkedMul_eq_some_iff.mp hp
    exact ⟨hlead, hexact, hle⟩
  · rintro ⟨hlead, hexact, hle⟩
    exact ⟨dims.prod, elementCount_eq_some_iff.mpr ⟨hlead, rfl⟩, checkedMul_eq_some_iff.mpr ⟨hexact, hle⟩⟩

theorem payloadSize_eq_none_iff {type : ElementType} {dims : List Nat} :
    payloadSize type dims = none ↔ ∀ p, ¬Payload type dims p := by
  rw [Option.eq_none_iff_forall_ne_some]
  simp only [ne_eq, payloadSize_eq_some_iff]

theorem ElementType.size_pos (t : ElementType) : 0 < t.size := by
  cases t <;> decide

/-- No product of leading dimensions is larger than that of the dimensions before the first zero. -/
theorem prod_take_le (dims : List Nat) (k : Nat) : (dims.take k).prod ≤ (dims.takeWhile (· ≠ 0)).prod := by
  induction dims generalizing k with
  | nil => simp
  | cons d ds ih =>
      by_cases hd : d = 0
      · -- Every product beyond this one is zero.
        subst hd
        cases k <;> simp
      · have hcons : (d :: ds).takeWhile (· ≠ 0) = d :: ds.takeWhile (· ≠ 0) :=
          List.takeWhile_cons_of_pos (decide_eq_true hd)
        rw [hcons, List.prod_cons]
        cases k with
        | zero =>
            have hpos : 0 < (ds.takeWhile (· ≠ 0)).prod := Nat.lt_of_lt_of_le Nat.one_pos (ih 0)
            exact Nat.mul_pos (Nat.pos_of_ne_zero hd) hpos
        | succ k =>
            rw [List.take_succ_cons, List.prod_cons]
            exact Nat.mul_le_mul_left d (ih k)

/-- The product of the dimensions before the first zero is within 64 bits. -/
def Counted (dims : List Nat) : Prop := (dims.takeWhile (· ≠ 0)).prod ≤ 0xFFFFFFFFFFFFFFFF

instance (dims : List Nat) : Decidable (Counted dims) := inferInstanceAs (Decidable (_ ≤ _))

theorem payload_iff {type : ElementType} {dims : List Nat} {p : Nat} :
    Payload type dims p ↔ dims.prod * type.size = p ∧ Counted dims ∧ p ≤ 0xFFFFFFFFFFFFFFFF := by
  constructor
  · rintro ⟨hleading, hexact, hfits⟩
    have hprefix : dims.takeWhile (· ≠ 0) <+: dims := List.takeWhile_prefix _
    refine ⟨hexact, ?_, hfits⟩
    rw [Counted, List.prefix_iff_eq_take.mp hprefix]
    exact hleading _
  · rintro ⟨hexact, hcounted, hfits⟩
    exact ⟨fun k => (prod_take_le dims k).trans hcounted, hexact, hfits⟩

/-- Without a zero among the dimensions no partial product is larger than the size. -/
theorem counted_of_notMem {type : ElementType} {dims : List Nat} (h : 0 ∉ dims)
    (hfits : dims.prod * type.size ≤ 0xFFFFFFFFFFFFFFFF) : Counted dims := by
  have hself : dims.takeWhile (· ≠ 0) = dims :=
    List.takeWhile_eq_self_iff.mpr fun _ hd => decide_eq_true (ne_of_mem_of_not_mem hd h)
  rw [Counted, hself]
  exact (Nat.le_mul_of_pos_right dims.prod type.size_pos).trans hfits

theorem dim_le_prod {dims : List Nat} {d : Nat} (h : 0 ∉ dims) (hd : d ∈ dims) : d ≤ dims.prod := by
  have hne : dims.prod ≠ 0 := List.prod_ne_zero h
  exact Nat.le_of_dvd (Nat.pos_of_ne_zero hne) (List.dvd_prod hd)

theorem dim_le_size (type : ElementType) {dims : List Nat} {d : Nat} (h : 0 ∉ dims) (hd : d ∈ dims) :
    d ≤ dims.prod * type.size :=
  (dim_le_prod h hd).trans (Nat.le_mul_of_pos_right _ type.size_pos)

theorem ElementType.ofId?_eq_some_iff {n : Int} {t : ElementType} : ofId? n = some t ↔ (t.id : Int) = n := by
  constructor
  · intro h
    simpa using List.find?_some h
  · rintro rfl
    cases t <;> rfl

theorem ElementType.ofId?_eq_none_iff {n : Int} : ofId? n = none ↔ ∀ t : ElementType, (t.id : Int) ≠ n := by
  rw [Option.eq_none_iff_forall_ne_some]
  simp only [ne_eq, ofId?_eq_some_iff]

end ArrayBridge
