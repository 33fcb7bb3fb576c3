import ArrayBridge.Proofs.TypedBlob.Guarded

/-!
Where a blob ends. Its header says how long it is, so that what is cut from it or put behind it is always noticed:
what is left of the header reads as before, and only its length is wrong.
-/
namespace ArrayBridge.TypedBlob

variable {b b₂ p : Bytes} {t u : TypedBlob}

theorem getElem?_of_isPrefix (h : p <+: b) {k : Nat} (hk : k < p.length) : p[k]? = b[k]? := by
  obtain ⟨rest, rfl⟩ := h
  exact (List.getElem?_append_left hk).symm

/-- Bytes with the header of a blob are read up to the check of their length. -/
theorem decode_of_header (h : decode b = .ok t) (htable : 36 + 4 * t.dims.length ≤ b₂.length)
    (hsame : ∀ k < 36 + 4 * t.dims.length, b₂[k]? = b[k]?)
    (hne : t.data.length ≠ b₂.length - (36 + 4 * t.dims.length)) :
    decode b₂ = .error (.sizeMismatch t.data.length (b₂.length - (36 + 4 * t.dims.length))) := by
  obtain ⟨hshaped, hpayload, -, -⟩ := decode_eq_ok h
  exact (Verdict.mismatch (hshaped.congr htable hsame) hpayload hne).decode_eq

theorem decode_of_part_table (h : decode b = .ok t) (hp : p <+: b) (hlong : 36 ≤ p.length)
    (hcut : p.length < 36 + 4 * t.dims.length) :
    decode p = .error (.unsupportedHeader (.truncated t.dims.length)) := by
  obtain ⟨hshaped, -, -, -⟩ := decode_eq_ok h
  have hsame : ∀ k < 36, p[k]? = b[k]? := fun k hk => getElem?_of_isPrefix hp (by omega)
  have htyped := hshaped.toTyped.congr hlong hsame
  have hcount : t.order.Stands p 32 4 t.dims.length := hshaped.count.congr fun k _ hk => hsame k (by omega)
  exact (Verdict.truncated htyped hcount hcut).decode_eq

theorem decode_of_part_elements (h : decode b = .ok t) (hp : p <+: b) (hne : p ≠ b)
    (htable : 36 + 4 * t.dims.length ≤ p.length) :
    decode p = .error (.sizeMismatch t.data.length (p.length - (36 + 4 * t.dims.length))) := by
  have hlen := length_of_decode h
  have hlt : p.length < b.length := Nat.lt_of_le_of_ne hp.length_le fun he => hne (hp.eq_of_length he)
  apply decode_of_header h htable
  · intro k hk
    exact getElem?_of_isPrefix hp (by omega)
  · omega

theorem decode_append (h : decode b = .ok t) {s : Bytes} (hs : s ≠ []) :
    decode (b ++ s) = .error (.sizeMismatch t.data.length (t.data.length + s.length)) := by
  have hlen := length_of_decode h
  have hpos := List.length_pos_iff.mpr hs
  have hrest : (b ++ s).length - (36 + 4 * t.dims.length) = t.data.length + s.length := by
    rw [List.length_append]
    omega
  rw [← hrest]
  apply decode_of_header h
  · rw [List.length_append]
    omega
  · intro k hk
    exact List.getElem?_append_left (by omega)
  · omega

theorem eq_of_isPrefix (hb : decode b = .ok t) (hc : decode b₂ = .ok u) (h : b <+: b₂) : b = b₂ := by
  obtain ⟨s, rfl⟩ := h
  by_cases hs : s = []
  · rw [hs, List.append_nil]
  · rw [decode_append hb hs] at hc
    cases hc

/-- A blob is neither part of another nor made longer to one. The refusal of a part says where it was cut, in the
header, in the table of dimensions or in the elements. -/
theorem extent_exact (b : Bytes) (t : TypedBlob) (h : decode b = .ok t) :
    (∀ p, p <+: b → p.length < 36 → decode p = .error (.unsupportedHeader (.short p.length))) ∧
      (∀ p, p <+: b → 36 ≤ p.length → p.length < 36 + 4 * t.dims.length →
        decode p = .error (.unsupportedHeader (.truncated t.dims.length))) ∧
      (∀ p, p <+: b → p ≠ b → 36 + 4 * t.dims.length ≤ p.length →
        decode p = .error (.sizeMismatch t.data.length (p.length - (36 + 4 * t.dims.length)))) ∧
      (∀ s, s ≠ [] → decode (b ++ s) = .error (.sizeMismatch t.data.length (t.data.length + s.length))) ∧
      ∀ b₂ u, decode b₂ = .ok u → b <+: b₂ → b = b₂ := by
  refine ⟨?_, ?_, ?_, ?_, ?_⟩
  · intro p _ hcut
    exact (Verdict.short hcut).decode_eq
  · intro p hp hlong hcut
    exact decode_of_part_table h hp hlong hcut
  · intro p hp hne htable
    exact decode_of_part_elements h hp hne htable
  · intro s hs
    exact decode_append h hs
  · intro b₂ u hc hp
    exact eq_of_isPrefix h hc hp

/-- A row of two bytes, cut in each of its parts and with a byte behind it. -/
theorem extent_exact_row :
    decode (row.take 20) = .error (.unsupportedHeader (.short 20)) ∧
      decode (row.take 43) = .error (.unsupportedHeader (.truncated 2)) ∧
      decode (row.take 45) = .error (.sizeMismatch 2 1) ∧ decode (row ++ [9]) = .error (.sizeMismatch 2 3) := by
  have h : decode row = .ok ⟨.uint8, [1, 2], [7, 8], "HOST", .big⟩ := by decide
  obtain ⟨hheader, htable, helements, hbehind, -⟩ := extent_exact row _ h
  refine ⟨?_, ?_, ?_, ?_⟩
  · exact hheader _ (List.take_prefix 20 row) (by decide)
  · exact htable _ (List.take_prefix 43 row) (by decide) (by decide)
  · exact helements _ (List.take_prefix 45 row) (by decide) (by decide)
  · exact hbehind [9] (by decide)

end ArrayBridge.TypedBlob
