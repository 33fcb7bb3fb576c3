import ArrayBridge.Proofs.FieldName
import Mathlib.Data.List.Perm.Subperm

/-!
How long the forms of a name last: a hundred names are always told apart, and of more copies of one name those that are
left over stay as they are. Once the forms of a name are used up they remain so, which is why names that were resolved
resolve to themselves.
-/
namespace ArrayBridge.FieldName

variable {done later taken : List String} {name u : String}

theorem suffixed_injective (name : String) : Function.Injective (suffixed name) := by
  intro j k h
  have hdigits : Nat.toDigits 10 j = Nat.toDigits 10 k := by
    rw [← Nat.toList_repr, ← Nat.toList_repr]
    exact congrArg String.toList ((String.append_right_inj (name ++ "_")).mp h)
  calc j
    _ = Nat.ofDigitChars 10 (Nat.toDigits 10 j) 0 := (Nat.ofDigitChars_toDigits (by decide) (by decide)).symm
    _ = Nat.ofDigitChars 10 (Nat.toDigits 10 k) 0 := by rw [hdigits]
    _ = k := Nat.ofDigitChars_toDigits (by decide) (by decide)

theorem suffixed_ne (name : String) (k : Nat) : suffixed name k ≠ name := by
  intro h
  have hlen := congrArg String.length h
  rw [suffixed, String.length_append, String.length_append] at hlen
  have hone : "_".length = 1 := rfl
  omega

/-- The names that copies of one name come to, as long as its forms last. -/
def series (name : String) : List String := name :: forms name

theorem length_series (name : String) : (series name).length = 100 := by
  rw [series, List.length_cons, forms, List.length_map, List.length_range']
  rfl

theorem nodup_series (name : String) : (series name).Nodup := by
  refine List.nodup_cons.mpr ⟨fun hname => ?_, List.Nodup.map (suffixed_injective name) List.nodup_range'⟩
  obtain ⟨k, -, -, hk⟩ := mem_forms.mp hname
  exact suffixed_ne name k hk

theorem mem_of_repeated (hname : name ∈ done) (h : u ∈ done ++ name :: later) : u ∈ done ∨ u ∈ later := by
  rcases List.mem_append.mp h with h | h
  · exact .inl h
  · rcases List.mem_cons.mp h with rfl | h
    · exact .inl hname
    · exact .inr h

/-- Names among which the forms of one are used up are more than a hundred: besides the forms, that name and its copy. -/
theorem length_of_taken (hdone : name ∈ done) (hfree : free? (done ++ name :: later) name = none) :
    100 < (done ++ name :: later).length := by
  have hsub : series name ⊆ done ++ later := by
    intro u hu
    rcases List.mem_cons.mp hu with rfl | hform
    · exact List.mem_append_left later hdone
    · exact List.mem_append.mpr (mem_of_repeated hdone (free?_eq_none_iff.mp hfree hform))
  have hle := ((nodup_series name).subperm hsub).length_le
  rw [length_series, List.length_append] at hle
  rw [List.length_append, List.length_cons]
  omega

theorem no_warning_of_length_le (h : (done ++ later).length ≤ 100) : (resolveAfter done later).2 = [] := by
  induction later generalizing done with
  | nil => rfl
  | cons name later ih =>
      have hlen : ∀ u, (done ++ [u] ++ later).length = (done ++ name :: later).length := by simp
      rcases resolveAfter_cons done name later with ⟨u, -, -, hstep⟩ | ⟨hdone, hfree, -⟩
      · rw [hstep, ih (hlen u ▸ h)]
      · exact absurd h (Nat.not_le.mpr (length_of_taken hdone hfree))

theorem free?_eq_series {m : Nat} (hpos : 0 < m) (hm : m < (series name).length)
    (hbefore : (series name).take m ⊆ taken) (hnew : (series name)[m] ∉ taken) :
    free? taken name = some (series name)[m] := by
  obtain ⟨m, rfl⟩ : ∃ k, m = k + 1 := ⟨m - 1, by omega⟩
  have hlt : m < (forms name).length := Nat.lt_of_succ_lt_succ hm
  refine List.find?_eq_some_iff_getElem.mpr ⟨decide_eq_true hnew, m, hlt, rfl, fun j hj => ?_⟩
  have hmem : (forms name)[j] ∈ (series name).take (m + 1) := by
    rw [series, List.take_succ_cons]
    exact List.mem_cons_of_mem name (List.mem_take_iff_getElem.mpr ⟨j, by omega, rfl⟩)
  simpa [forms] using hbefore hmem

theorem getElem_series_notMem (name : String) {m : Nat} (hm : m < (series name).length) :
    (series name)[m] ∉ (series name).take m := by
  have hnodup := (nodup_series name).sublist (List.take_sublist (m + 1) (series name))
  rw [List.take_succ_eq_append_getElem hm] at hnodup
  exact (nodup_snoc_iff.mp hnodup).1

/-- After `m` copies of a name the next one comes to the next name of the series. -/
theorem resolveAfter_series (x : String) {m : Nat} (hm : m < (series x).length) (r : Nat) :
    resolveAfter ((series x).take m) (List.replicate (r + 1) x) =
      resolveAfter ((series x).take (m + 1)) (List.replicate r x) := by
  rw [List.replicate_succ, List.take_succ_eq_append_getElem hm]
  rcases Nat.eq_zero_or_pos m with rfl | hpos
  · exact resolveAfter_of_notMem List.not_mem_nil
  have hx : x ∈ (series x).take m := by
    obtain ⟨m, rfl⟩ : ∃ k, m = k + 1 := ⟨m - 1, by omega⟩
    exact List.mem_cons_self
  -- Neither the copies that are left nor the names of the series so far are the next one.
  have hnext := getElem_series_notMem x hm
  refine resolveAfter_of_free hx (free?_eq_series hpos hm (List.subset_append_left _ _) fun hmem => ?_)
  rcases List.mem_append.mp hmem with h | h
  · exact hnext h
  · have hcopy : (series x)[m] = x := (List.mem_cons.mp h).elim id List.eq_of_mem_replicate
    exact hnext (hcopy.symm ▸ hx)

theorem resolveAfter_copies (x : String) {m n : Nat} (h : m + n ≤ (series x).length) (r : Nat) :
    resolveAfter ((series x).take m) (List.replicate (n + r) x) =
      resolveAfter ((series x).take (m + n)) (List.replicate r x) := by
  induction n generalizing m with
  | zero => rw [Nat.zero_add, Nat.add_zero]
  | succ n ih =>
      rw [Nat.add_right_comm, resolveAfter_series x (by omega), ih (by omega), Nat.add_assoc, Nat.add_comm 1 n]

theorem resolveAfter_taken (hname : name ∈ done) (hforms : forms name ⊆ done) (r : Nat) :
    resolveAfter done (List.replicate r name) =
      (done ++ List.replicate r name, List.replicate r (.duplicateFieldName name)) := by
  induction r generalizing done with
  | zero => rw [List.replicate_zero, List.append_nil]; rfl
  | succ r ih =>
      have hfree : free? (done ++ name :: List.replicate r name) name = none :=
        free?_eq_none_iff.mpr fun u hu => List.mem_append_left _ (hforms hu)
      have hrest := ih (List.mem_append_left [name] hname) fun u hu => List.mem_append_left [name] (hforms hu)
      rw [List.replicate_succ, resolveAfter_of_taken hname hfree, hrest, List.append_assoc]
      rfl

theorem resolve_replicate (x : String) (n : Nat) :
    resolve (List.replicate n x) =
      ((series x).take n ++ List.replicate (n - 100) x, List.replicate (n - 100) (.duplicateFieldName x)) := by
  have hlen := length_series x
  have hcopies := resolveAfter_copies x (m := 0) (n := min n 100) (by omega) (n - 100)
  rw [Nat.zero_add, show min n 100 + (n - 100) = n by omega, List.take_zero] at hcopies
  rw [resolve, hcopies]
  rcases Nat.le_total n 100 with hle | hle
  · rw [Nat.min_eq_left hle, Nat.sub_eq_zero_of_le hle, List.replicate_zero, List.append_nil]
    rfl
  · rw [Nat.min_eq_right hle, List.take_of_length_le (Nat.le_of_eq hlen), List.take_of_length_le (hlen ▸ hle)]
    exact resolveAfter_taken List.mem_cons_self (List.subset_cons_self x (forms x)) (n - 100)

/-- Up to a hundred names are told apart, whatever they are. A hundred is the most for copies of one name, the rest of
which stay as they are, each with a warning. -/
theorem supply_exact :
    (∀ names : List String, names.length ≤ 100 → (resolve names).2 = [] ∧ (resolve names).1.Nodup) ∧
      ∀ (x : String) (n : Nat),
        (resolve (List.replicate n x)).2 = List.replicate (n - 100) (.duplicateFieldName x) ∧
          (resolve (List.replicate n x)).1 =
            (x :: (List.range' 1 99).map fun k => x ++ "_" ++ toString k).take n ++ List.replicate (n - 100) x := by
  constructor
  · intro names hlen
    have hnone : (resolve names).2 = [] := no_warning_of_length_le hlen
    exact ⟨hnone, (nodup_resolveAfter_iff [] names).mpr ⟨List.nodup_nil, hnone⟩⟩
  · intro x n
    rw [resolve_replicate]
    exact ⟨rfl, rfl⟩

/-- Duplicates of a name and of one of its forms, and one copy too many. -/
theorem supply_exact_suffixed :
    (resolve ["a", "a_1", "a", "a_1"]).2 = [] ∧ (resolve ["a", "a_1", "a", "a_1"]).1.Nodup ∧
      (resolve (List.replicate 101 "a")).2 = [.duplicateFieldName "a"] := by
  obtain ⟨hnone, hdistinct⟩ := supply_exact.1 ["a", "a_1", "a", "a_1"] (by decide)
  obtain ⟨hwarnings, -⟩ := supply_exact.2 "a" 101
  exact ⟨hnone, hdistinct, hwarnings⟩

/-- A name that was given is still there in the end, if only in the place where it came first. -/
theorem mem_resolveAfter (h : name ∈ done ++ later) : name ∈ (resolveAfter done later).1 := by
  induction later generalizing done with
  | nil => rwa [List.append_nil] at h
  | cons head later ih =>
      rcases resolveAfter_cons done head later with ⟨u, -, rfl | ⟨hdone, -⟩, hstep⟩ | ⟨-, -, hstep⟩
      · rw [hstep]
        exact ih (by rwa [List.append_assoc])
      · rw [hstep]
        apply ih
        rcases mem_of_repeated hdone h with h | h
        · exact List.mem_append_left later (List.mem_append_left [u] h)
        · exact List.mem_append_right (done ++ [u]) h
      · rw [hstep]
        exact ih (by rwa [List.append_assoc])

theorem exists_resolveAfter_again (done later : List String) :
    ∃ us, (resolveAfter done later).1 = done ++ us ∧ resolveAfter done us = resolveAfter done later := by
  induction later generalizing done with
  | nil => exact ⟨[], (List.append_nil done).symm, rfl⟩
  | cons name later ih =>
      rcases resolveAfter_cons done name later with ⟨u, hnew, -, hstep⟩ | ⟨hdone, hfree, hstep⟩
      · obtain ⟨us, hfinal, hagain⟩ := ih (done ++ [u])
        refine ⟨u :: us, ?_, ?_⟩
        · rw [hstep, hfinal, List.append_assoc]
          rfl
        · rw [resolveAfter_of_notMem hnew, hagain, hstep]
      · obtain ⟨us, hfinal, hagain⟩ := ih (done ++ [name])
        have hall : (resolveAfter (done ++ [name]) later).1 = done ++ name :: us := by
          rw [hfinal, List.append_assoc]
          rfl
        -- The forms that the name met were done or still to come; either way they are among the names in the end.
        have hforms : forms name ⊆ done ++ name :: us := by
          intro u hu
          rw [← hall]
          apply mem_resolveAfter
          rw [List.append_assoc]
          exact free?_eq_none_iff.mp hfree hu
        refine ⟨name :: us, ?_, ?_⟩
        · rw [hstep, hall]
        · rw [resolveAfter_of_taken hdone (free?_eq_none_iff.mpr hforms), hagain, hstep]

/-- Resolving once more changes no name and gives the warnings again. -/
theorem resolve_resolve (names : List String) : resolve (resolve names).1 = resolve names := by
  obtain ⟨us, hfinal, hagain⟩ := exists_resolveAfter_again [] names
  rw [resolve, resolve, hfinal]
  exact hagain

end ArrayBridge.FieldName
