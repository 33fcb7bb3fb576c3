import ArrayBridge.Proofs.Shape
import ArrayBridge.Proofs.StoredArray

/-!
Arrays as they come about, through a constructor or out of a blob. Their data is exactly as long as their
dimensions say, so that nothing but its size keeps one of them from being stored and read back.
-/
namespace ArrayBridge.NumericArray

/-- An array that the host can have. -/
inductive Constructed : NumericArray → Prop
  | new {type : ElementType} {dims : List Nat} {data : Bytes} {a : NumericArray} :
      NumericArray.new type dims data = .ok a → Constructed a
  | ofElements {t : ElementType} {dims : List Nat} {values : List t.Value} {a : NumericArray} :
      NumericArray.ofElements t dims values = .ok a → Constructed a
  | scalar (t : ElementType) (value : t.Value) : Constructed (.scalar t value)
  | row (t : ElementType) (values : List t.Value) : Constructed (.row t values)
  | ofBytes (bytes : Bytes) : Constructed (.ofBytes bytes)
  | empty : Constructed .empty
  | ofBlob {b : Bytes} {w w' : List Warning} {a : NumericArray} :
      (NumericArray.ofBlob b).runWith w = (.ok a, w') → Constructed a

/-- The data is as long as the dimensions say, and these can be counted up to a zero among them. -/
structure Filled (a : NumericArray) : Prop where
  exact : a.dims.prod * a.type.size = a.data.length
  counted : 0 ∈ a.dims → Counted a.dims

variable {type : ElementType} {dims : List Nat} {data : Bytes} {config : Config} {a : NumericArray}

theorem filled_of_payload (h : Payload type dims data.length) : Filled ⟨type, dims, data⟩ :=
  ⟨h.exact, fun _ => (payload_iff.mp h).2.1⟩

theorem filled_of_new (h : NumericArray.new type dims data = .ok a) : a.Filled := by
  obtain ⟨rfl, hp⟩ := new_eq_ok_iff.mp h
  exact filled_of_payload hp

theorem filled_of_row {n : Nat} (h : n * type.size = data.length) : Filled ⟨type, [1, n], data⟩ := by
  refine ⟨by simpa using h, fun hzero => ?_⟩
  obtain rfl : n = 0 := by simpa [eq_comm] using hzero
  exact (by decide : Counted [1, 0])

theorem decode_of_ofBlob {b : Bytes} {w w' : List Warning} (h : (ofBlob b).runWith w = (.ok a, w')) :
    ∃ t, TypedBlob.decode b = .ok t ∧ a = ⟨t.type, t.dims, t.data⟩ := by
  rw [runWith_ofBlob] at h
  cases hdecode : TypedBlob.decode b with
  | error e =>
      rw [hdecode] at h
      cases h
  | ok t =>
      rw [hdecode] at h
      cases h
      exact ⟨t, rfl, rfl⟩

theorem Constructed.filled (h : a.Constructed) : a.Filled := by
  cases h with
  | new hnew => exact filled_of_new hnew
  | ofElements hnew => exact filled_of_new hnew
  | scalar t value => exact filled_of_row (by rw [t.length_store, Nat.one_mul])
  | row t values => exact filled_of_row (length_storeAll t values).symm
  | ofBytes bytes => exact filled_of_row (Nat.mul_one _)
  | empty => exact ⟨rfl, fun _ => by decide⟩
  | ofBlob hblob =>
      obtain ⟨t, hdecode, rfl⟩ := decode_of_ofBlob hblob
      obtain ⟨-, hp, -, -⟩ := TypedBlob.decode_eq_ok hdecode
      exact filled_of_payload hp

theorem Filled.payload (h : a.Filled) (hfits : a.data.length ≤ 0xFFFFFFFFFFFFFFFF) :
    Payload a.type a.dims a.data.length :=
  (payload_iff_exact hfits).mpr ⟨h.exact.symm, h.counted⟩

theorem Filled.count_eq (h : a.Filled) : a.count = a.dims.prod := by
  rw [count, ← h.exact, Nat.mul_div_cancel _ a.type.size_pos]

/-- Storing an array is writing a blob, with the outcome put in terms of the host. -/
theorem exists_written (a : NumericArray) (config : Config) :
    ∃ r, TypedBlob.Written .current a.type a.dims a.data config.maxBlobSize r ∧
      a.toBlob config = r.mapError .ofBlob :=
  ⟨_, TypedBlob.written_encodeFor "GLNXA64" .native config.maxBlobSize, rfl⟩

theorem Filled.sizeExceeded_of_toBlob (h : a.Filled) {e : BridgeError} (he : a.toBlob config = .error e) :
    ∃ size max, e = .sizeExceeded size max := by
  obtain ⟨r, hwritten, hblob⟩ := exists_written a config
  rw [hblob] at he
  cases hwritten with
  | uncounted _ => exact ⟨_, _, (Except.error.inj he).symm⟩
  | large _ _ _ => exact ⟨_, _, (Except.error.inj he).symm⟩
  | uneven hp _ _ hne => exact absurd (h.exact.symm.trans hp.exact) hne
  | blob _ _ _ _ => cases he

/-- What reading an array out of a blob comes to, and the warnings it adds. -/
inductive Restored (b : Bytes) : Except BridgeError NumericArray → List Warning → Prop
  | refused {e : BlobError} : TypedBlob.decode b = .error e → Restored b (.error (.ofBlob e)) []
  | own {t : TypedBlob} : TypedBlob.decode b = .ok t → ⟨t.platform, t.order⟩ = Platform.current →
      Restored b (.ok ⟨t.type, t.dims, t.data⟩) []
  | foreign {t : TypedBlob} : TypedBlob.decode b = .ok t → ⟨t.platform, t.order⟩ ≠ Platform.current →
      Restored b (.ok ⟨t.type, t.dims, t.data⟩) [.differentOrigin t.platform t.order]

theorem Restored.runWith_eq {b : Bytes} {r : Except BridgeError NumericArray} {noted : List Warning}
    (h : Restored b r noted) (w : List Warning) : (ofBlob b).runWith w = (r, w ++ noted) := by
  rw [runWith_ofBlob, originWarnings]
  cases h with
  | refused hdecode => rw [hdecode]; rfl
  | @own t hdecode horigin =>
      have hsame : t.differsFrom .current = false := by
        rw [← Bool.not_eq_true, TypedBlob.differsFrom_iff]
        exact not_not_intro horigin.symm
      simp only [hdecode, hsame, Bool.false_eq_true, if_false]
      rfl
  | @foreign t hdecode horigin =>
      have hother : t.differsFrom .current = true := (TypedBlob.differsFrom_iff t .current).mpr horigin.symm
      simp only [hdecode, hother, if_true]
      rfl

theorem exists_restored (b : Bytes) : ∃ r noted, Restored b r noted := by
  cases hdecode : TypedBlob.decode b with
  | error e => exact ⟨_, _, .refused hdecode⟩
  | ok t =>
      by_cases horigin : (⟨t.platform, t.order⟩ : Platform) = Platform.current
      · exact ⟨_, _, .own hdecode horigin⟩
      · exact ⟨_, _, .foreign hdecode horigin⟩

theorem runWith_ofBlob_eq_iff {b : Bytes} {r : Except BridgeError NumericArray} {w w' : List Warning} :
    (ofBlob b).runWith w = (r, w') ↔ ∃ noted, Restored b r noted ∧ w' = w ++ noted := by
  constructor
  · intro h
    obtain ⟨r₁, noted, hrestored⟩ := exists_restored b
    cases h.symm.trans (hrestored.runWith_eq w)
    exact ⟨noted, hrestored, rfl⟩
  · rintro ⟨noted, hrestored, rfl⟩
    exact hrestored.runWith_eq w

/-- An array is stored unless its blob would be too large, and comes back as it was and without a warning. What
is read is what the reader of blobs takes, and no check is left to refuse it once its origin is noted. -/
theorem ofBlob_exact :
    (∀ (a : NumericArray) (config : Config), a.Constructed →
      (∀ e, a.toBlob config = .error e → ∃ size max, e = .sizeExceeded size max) ∧
        ∀ b, a.toBlob config = .ok b → ∀ w : List Warning, (ofBlob b).runWith w = (.ok a, w)) ∧
      ∀ b : Bytes,
        (∀ (r : Except BridgeError NumericArray) (w w' : List Warning),
          (ofBlob b).runWith w = (r, w') ↔ ∃ noted, Restored b r noted ∧ w' = w ++ noted) ∧
          ∀ t, TypedBlob.decode b = .ok t →
            NumericArray.new t.type t.dims t.data = .ok ⟨t.type, t.dims, t.data⟩ := by
  refine ⟨fun a config h => ⟨fun e he => ?_, fun b hb w => ?_⟩, fun b => ⟨fun r w w' => ?_, fun t ht => ?_⟩⟩
  · exact h.filled.sizeExceeded_of_toBlob he
  · exact ofBlob_of_toBlob hb w
  · exact runWith_ofBlob_eq_iff
  · exact new_of_decode ht

/-- A warning that is there already stays in front, and only the other platform adds one. -/
theorem ofBlob_exact_foreign :
    (∃ b, (NumericArray.row .int16 [1, -2]).toBlob {} = .ok b ∧
        (ofBlob b).runWith [.duplicateFieldName "a"] =
          (.ok (.row .int16 [1, -2]), [.duplicateFieldName "a"])) ∧
      (ofBlob (TypedBlob.layout (.named "SOL2" .big) .uint8 [1, 2] [7, 8])).runWith [.duplicateFieldName "a"] =
        (.ok (.row .uint8 [7, 8]), [.duplicateFieldName "a", .differentOrigin "SOL2" .big]) := by
  have hblob : (NumericArray.row .int16 [1, -2]).toBlob {} =
      .ok (TypedBlob.layout .current .int16 [1, 2] [1, 0, 254, 255]) := by decide
  have hdecode : TypedBlob.decode (TypedBlob.layout (.named "SOL2" .big) .uint8 [1, 2] [7, 8]) =
      .ok ⟨.uint8, [1, 2], [7, 8], "SOL2", .big⟩ := by decide
  refine ⟨⟨_, hblob, (ofBlob_exact.1 _ {} (.row .int16 [1, -2])).2 _ hblob _⟩, ?_⟩
  exact ((ofBlob_exact.2 _).1 _ _ _).mpr ⟨_, .foreign hdecode (by decide), rfl⟩

end ArrayBridge.NumericArray
