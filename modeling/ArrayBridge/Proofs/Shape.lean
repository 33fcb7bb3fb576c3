import ArrayBridge.Proofs.NumericArray
import ArrayBridge.Proofs.TypedBlob.Reading
import ArrayBridge.Proofs.TypedBlob.Writing

/-!
The check that data and dimensions belong together, made for an array by itself and for one in a blob. It asks
for the exact size, and beyond that only refuses dimensions that cannot be counted up to a zero among them.
Data in memory has no more bytes than a 64-bit word can count.
-/
namespace ArrayBridge

variable {type : ElementType} {dims : List Nat} {data : Bytes}

theorem payload_iff_exact {n : Nat} (h : n ≤ 0xFFFFFFFFFFFFFFFF) :
    Payload type dims n ↔ n = dims.prod * type.size ∧ (0 ∈ dims → Counted dims) := by
  rw [payload_iff]
  constructor
  · rintro ⟨hexact, hcounted, -⟩
    exact ⟨hexact.symm, fun _ => hcounted⟩
  · rintro ⟨rfl, hzero⟩
    refine ⟨rfl, ?_, h⟩
    by_cases hmem : 0 ∈ dims
    · exact hzero hmem
    · exact counted_of_notMem hmem h

namespace NumericArray

theorem new_eq_ok_iff {a : NumericArray} :
    new type dims data = .ok a ↔ a = ⟨type, dims, data⟩ ∧ Payload type dims data.length := by
  rw [← payloadSize_eq_some_iff, new]
  split <;> simp [*, eq_comm]

theorem exists_new_iff (h : data.length ≤ 0xFFFFFFFFFFFFFFFF) :
    (∃ a, new type dims data = .ok a) ↔ data.length = dims.prod * type.size ∧ (0 ∈ dims → Counted dims) := by
  simp only [new_eq_ok_iff, exists_eq_left, payload_iff_exact h]

theorem exists_new_of_perm {dims' : List Nat} (h : data.length ≤ 0xFFFFFFFFFFFFFFFF) (hzero : 0 ∉ dims)
    (hperm : dims.Perm dims') :
    (∃ a, new type dims data = .ok a) ↔ ∃ a, new type dims' data = .ok a := by
  have hzero' : 0 ∉ dims' := fun hmem => hzero (hperm.mem_iff.mpr hmem)
  rw [exists_new_iff h, exists_new_iff h, hperm.prod_eq]
  exact and_congr_right fun _ => iff_of_true (fun hmem => absurd hmem hzero) fun hmem => absurd hmem hzero'

end NumericArray

namespace TypedBlob

theorem sizeMismatch_iff {b : Bytes} {actual : Nat} (h : b.length ≤ 0xFFFFFFFFFFFFFFFF) :
    (∃ expected, decode b = .error (.sizeMismatch expected actual)) ↔
      ∃ order type dims, Shaped b order type dims ∧ actual = b.length - (36 + 4 * dims.length) ∧
        ¬(actual = dims.prod * type.size ∧ (0 ∈ dims → Counted dims)) := by
  constructor
  · rintro ⟨expected, herror⟩
    have hverdict := verdict_decode b
    rw [herror] at hverdict
    cases hverdict with
    | overflow hshaped hnone =>
        exact ⟨_, _, _, hshaped, rfl, fun hexact => hnone _ ((payload_iff_exact (by omega)).mpr hexact)⟩
    | mismatch hshaped hp hne =>
        exact ⟨_, _, _, hshaped, rfl, fun hexact => hne (hp.exact.symm.trans hexact.1.symm)⟩
  · rintro ⟨order, type, dims, hshaped, rfl, hne⟩
    by_cases hpayload : ∃ p, Payload type dims p
    · obtain ⟨p, hp⟩ := hpayload
      refine ⟨_, (Verdict.mismatch hshaped hp fun he => hne ?_).decode_eq⟩
      exact (payload_iff_exact (by omega)).mp (he ▸ hp)
    · exact ⟨_, (Verdict.overflow hshaped fun p hp => hpayload ⟨p, hp⟩).decode_eq⟩

end TypedBlob

/-- Data is taken for an array of these dimensions if it has the exact size, unless a zero among them stands
behind others whose product is too large. Without a zero the order of the dimensions is of no account. -/
theorem shape_exact (type : ElementType) (dims : List Nat) (data b : Bytes)
    (hdata : data.length ≤ 0xFFFFFFFFFFFFFFFF) (hb : b.length ≤ 0xFFFFFFFFFFFFFFFF) :
    ((∃ a, NumericArray.new type dims data = .ok a) ↔
        data.length = dims.prod * type.size ∧ (0 ∈ dims → Counted dims)) ∧
      (∀ dims', 0 ∉ dims → dims.Perm dims' →
        ((∃ a, NumericArray.new type dims data = .ok a) ↔ ∃ a, NumericArray.new type dims' data = .ok a)) ∧
      ∀ actual : Nat,
        (∃ expected, TypedBlob.decode b = .error (.sizeMismatch expected actual)) ↔
          ∃ order type dims, TypedBlob.Shaped b order type dims ∧ actual = b.length - (36 + 4 * dims.length) ∧
            ¬(actual = dims.prod * type.size ∧ (0 ∈ dims → Counted dims)) := by
  refine ⟨NumericArray.exists_new_iff hdata, ?_, ?_⟩
  · intro dims' hzero hperm
    exact NumericArray.exists_new_of_perm hdata hzero hperm
  · intro actual
    exact TypedBlob.sizeMismatch_iff hb

theorem shape_exact_turned :
    (∃ a, NumericArray.new .int16 [1, 2] [1, 0, 2, 0] = .ok a) ∧
      (∃ a, NumericArray.new .int16 [2, 1] [1, 0, 2, 0] = .ok a) ∧
      ∃ expected, TypedBlob.decode (TypedBlob.layout .current .int16 [1, 2] [1, 0, 2]) =
        .error (.sizeMismatch expected 3) := by
  have hlayout : TypedBlob.Layout .current .int16 [1, 2] [1, 0, 2]
      (TypedBlob.layout .current .int16 [1, 2] [1, 0, 2]) :=
    TypedBlob.layout_layout (by decide) (by decide) (by decide)
  obtain ⟨hnew, hturned, hblob⟩ := shape_exact .int16 [1, 2] [1, 0, 2, 0]
    (TypedBlob.layout .current .int16 [1, 2] [1, 0, 2]) (by decide) (by decide)
  have hrow := hnew.mpr ⟨by decide, by decide⟩
  refine ⟨hrow, (hturned [2, 1] (by decide) (by decide)).mp hrow, ?_⟩
  exact (hblob 3).mpr ⟨_, _, _, hlayout.toShaped, by decide, by decide⟩

/-- With the zero last the size is exact and yet refused, for an array and for one in a blob. -/
theorem shape_order_matters :
    [0x100000000, 0x100000000, 0].prod * ElementType.double.size = 0 ∧
      NumericArray.new .double [0x100000000, 0x100000000, 0] [] =
        .error (.invalidArgument (.unfilled 0 [0x100000000, 0x100000000, 0] .double)) ∧
      NumericArray.new .double [0, 0x100000000, 0x100000000] [] =
        .ok ⟨.double, [0, 0x100000000, 0x100000000], []⟩ ∧
      [0x7FFFFFFF, 0x7FFFFFFF, 0x7FFFFFFF, 0].prod * ElementType.uint8.size = 0 ∧
      TypedBlob.decode (TypedBlob.layout .current .uint8 [0x7FFFFFFF, 0x7FFFFFFF, 0x7FFFFFFF, 0] []) =
        .error (.sizeMismatch 0xFFFFFFFFFFFFFFFF 0) ∧
      TypedBlob.decode (TypedBlob.layout .current .uint8 [0, 0x7FFFFFFF, 0x7FFFFFFF, 0x7FFFFFFF] []) =
        .ok ⟨.uint8, [0, 0x7FFFFFFF, 0x7FFFFFFF, 0x7FFFFFFF], [], "GLNXA64", .little⟩ := by
  decide

end ArrayBridge
