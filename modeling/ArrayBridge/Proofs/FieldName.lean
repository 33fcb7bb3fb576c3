import ArrayBridge.FieldName
import Mathlib.Data.List.Nodup

/-!
Field names are told apart one after the other. A name that was given never meets one that is still to come,
so that whether a name is a duplicate can be read off the names as they came.
-/
namespace ArrayBridge.FieldName

/-- What becomes of a name that comes after the names `before`, which stand as `done` by now, and is the first
of the names `later`: the name it has from now on, and the warnings for it. -/
inductive Settled (before done later : List String) (name : String) : String → List Warning → Prop
  | first : name ∉ before → Settled before done later name name []
  | renamed {k : Nat} : name ∈ before → 1 ≤ k → k ≤ 99 → name ++ "_" ++ toString k ∉ done ++ later →
      (∀ j, 1 ≤ j → j < k → name ++ "_" ++ toString j ∈ done ++ later) →
      Settled before done later name (name ++ "_" ++ toString k) []
  | ambiguous : name ∈ before → (∀ k, 1 ≤ k → k ≤ 99 → name ++ "_" ++ toString k ∈ done ++ later) →
      Settled before done later name name [.duplicateFieldName name]

/-- Each name that has come still stands, and one that was given instead is not among those to come. -/
structure Apart (before done later : List String) : Prop where
  stands : ∀ n ∈ before, n ∈ done
  fresh : ∀ u ∈ done, u ∉ before → u ∉ later

variable {before done later taken : List String} {name u : String} {w : List Warning}

/-- The forms that are tried for a name, in order. -/
def forms (name : String) : List String := (List.range' 1 maxSuffix).map (suffixed name)

theorem free?_eq_some (h : free? taken name = some u) :
    ∃ k, 1 ≤ k ∧ k ≤ 99 ∧ suffixed name k = u ∧ suffixed name k ∉ taken ∧
      ∀ j, 1 ≤ j → j < k → suffixed name j ∈ taken := by
  rw [free?, List.find?_map, Option.map_eq_some_iff] at h
  obtain ⟨k, hk, rfl⟩ := h
  obtain ⟨hfree, hmem, hleast⟩ := List.find?_range'_eq_some.mp hk
  obtain ⟨hlow, hhigh⟩ := List.mem_range'_1.mp hmem
  refine ⟨k, hlow, Nat.le_of_lt_succ hhigh, rfl, of_decide_eq_true hfree, fun j hj hlt => ?_⟩
  simpa using hleast j hj hlt

theorem mem_forms : u ∈ forms name ↔ ∃ k, 1 ≤ k ∧ k ≤ 99 ∧ suffixed name k = u := by
  constructor
  · intro h
    obtain ⟨k, hk, rfl⟩ := List.mem_map.mp h
    obtain ⟨hlow, hhigh⟩ := List.mem_range'_1.mp hk
    exact ⟨k, hlow, Nat.le_of_lt_succ hhigh, rfl⟩
  · rintro ⟨k, hlow, hhigh, rfl⟩
    exact List.mem_map_of_mem (List.mem_range'_1.mpr ⟨hlow, Nat.lt_succ_of_le hhigh⟩)

theorem free?_eq_none_iff : free? taken name = none ↔ forms name ⊆ taken := by
  rw [free?, List.find?_eq_none]
  simp only [decide_eq_true_eq, not_not]
  rfl

theorem resolveAfter_of_notMem (h : name ∉ done) :
    resolveAfter done (name :: later) = resolveAfter (done ++ [name]) later := by
  rw [resolveAfter, if_neg h]

theorem resolveAfter_of_free (h : name ∈ done) (hfree : free? (done ++ name :: later) name = some u) :
    resolveAfter done (name :: later) = resolveAfter (done ++ [u]) later := by
  rw [resolveAfter, if_pos h, hfree]

theorem resolveAfter_of_taken (h : name ∈ done) (hfree : free? (done ++ name :: later) name = none) :
    resolveAfter done (name :: later) =
      ((resolveAfter (done ++ [name]) later).1,
        .duplicateFieldName name :: (resolveAfter (done ++ [name]) later).2) := by
  rw [resolveAfter, if_pos h, hfree]

/-- A name comes to one that is new, itself or one of its forms, or it stays with a warning. -/
theorem resolveAfter_cons (done : List String) (name : String) (later : List String) :
    (∃ u, u ∉ done ∧ (u = name ∨ name ∈ done ∧ u ∈ forms name) ∧
        resolveAfter done (name :: later) = resolveAfter (done ++ [u]) later) ∨
      (name ∈ done ∧ free? (done ++ name :: later) name = none ∧
        resolveAfter done (name :: later) =
          ((resolveAfter (done ++ [name]) later).1,
            .duplicateFieldName name :: (resolveAfter (done ++ [name]) later).2)) := by
  by_cases hdone : name ∈ done
  · cases hfree : free? (done ++ name :: later) name with
    | some u =>
        obtain ⟨k, hlow, hhigh, rfl, hnot, -⟩ := free?_eq_some hfree
        have hnew : suffixed name k ∉ done := fun hu => hnot (List.mem_append_left _ hu)
        have hform : suffixed name k ∈ forms name := mem_forms.mpr ⟨k, hlow, hhigh, rfl⟩
        exact .inl ⟨_, hnew, .inr ⟨hdone, hform⟩, resolveAfter_of_free hdone hfree⟩
    | none => exact .inr ⟨hdone, rfl, resolveAfter_of_taken hdone hfree⟩
  · exact .inl ⟨name, hdone, .inl rfl, resolveAfter_of_notMem hdone⟩

theorem Apart.mem_iff (h : Apart before done (name :: later)) : name ∈ done ↔ name ∈ before := by
  constructor
  · intro hdone
    by_contra hbefore
    exact h.fresh name hdone hbefore List.mem_cons_self
  · exact h.stands name

theorem Settled.eq_or_fresh (h : Settled before done (name :: later) name u w) :
    u = name ∨ name ∈ before ∧ u ∉ later := by
  cases h with
  | first hfirst => exact .inl rfl
  | renamed hdup hlow hhigh hfree hleast =>
      exact .inr ⟨hdup, fun hu => hfree (List.mem_append_right done (List.mem_cons_of_mem name hu))⟩
  | ambiguous hdup hnone => exact .inl rfl

theorem Apart.settled (h : Apart before done (name :: later)) (hs : Settled before done (name :: later) name u w) :
    Apart (before ++ [name]) (done ++ [u]) later := by
  constructor
  · intro n hn
    rcases List.mem_append.mp hn with hn | hn
    · exact List.mem_append_left [u] (h.stands n hn)
    · obtain rfl := List.mem_singleton.mp hn
      rcases hs.eq_or_fresh with rfl | ⟨hdup, -⟩
      · exact List.mem_append_right done List.mem_cons_self
      · exact List.mem_append_left [u] (h.stands n hdup)
  · intro v hv hbefore
    obtain ⟨hb, hname⟩ := List.mem_append.not.mp hbefore |> not_or.mp
    rcases List.mem_append.mp hv with hv | hv
    · exact List.not_mem_of_not_mem_cons (h.fresh v hv hb)
    · obtain rfl := List.mem_singleton.mp hv
      rcases hs.eq_or_fresh with rfl | ⟨-, hfresh⟩
      · exact absurd List.mem_cons_self hname
      · exact hfresh

theorem exists_settled (h : Apart before done (name :: later)) :
    ∃ u w, Settled before done (name :: later) name u w ∧
      resolveAfter done (name :: later) =
        ((resolveAfter (done ++ [u]) later).1, w ++ (resolveAfter (done ++ [u]) later).2) := by
  by_cases hdone : name ∈ done
  · have hdup := h.mem_iff.mp hdone
    cases hfree : free? (done ++ name :: later) name with
    | none =>
        have hnone : ∀ k, 1 ≤ k → k ≤ 99 → suffixed name k ∈ done ++ name :: later := fun k hlow hhigh =>
          free?_eq_none_iff.mp hfree (mem_forms.mpr ⟨k, hlow, hhigh, rfl⟩)
        exact ⟨name, _, .ambiguous hdup hnone, resolveAfter_of_taken hdone hfree⟩
    | some u =>
        obtain ⟨k, hlow, hhigh, rfl, hnot, hleast⟩ := free?_eq_some hfree
        exact ⟨_, [], .renamed hdup hlow hhigh hnot hleast, resolveAfter_of_free hdone hfree⟩
  · exact ⟨name, [], .first fun hdup => hdone (h.stands name hdup), resolveAfter_of_notMem hdone⟩

theorem exists_settled_all (h : Apart before done later) :
    ∃ (us : List String) (ws : List (List Warning)), resolveAfter done later = (done ++ us, ws.flatten) ∧
      us.length = later.length ∧ ws.length = later.length ∧
      ∀ (i : Nat) (n : String), later[i]? = some n →
        ∃ u w, us[i]? = some u ∧ ws[i]? = some w ∧
          Settled (before ++ later.take i) (done ++ us.take i) (later.drop i) n u w := by
  -- What carries over from one name to the next is `Apart`.
  induction later generalizing before done with
  | nil => exact ⟨[], [], by simp [resolveAfter], rfl, rfl, nofun⟩
  | cons name later ih =>
      obtain ⟨u, w, hs, hstep⟩ := exists_settled h
      obtain ⟨us, ws, hrest, hus, hws, hall⟩ := ih (h.settled hs)
      refine ⟨u :: us, w :: ws, ?_, congrArg (· + 1) hus, congrArg (· + 1) hws, fun i n hn => ?_⟩
      · rw [hstep, hrest, List.append_assoc]
        rfl
      · cases i with
        | zero =>
            obtain rfl : name = n := Option.some.inj hn
            exact ⟨u, w, rfl, rfl, by simpa using hs⟩
        | succ i =>
            obtain ⟨v, x, hv, hx, hsettled⟩ := hall i n hn
            refine ⟨v, x, hv, hx, ?_⟩
            simpa only [List.append_assoc, List.take_succ_cons, List.drop_succ_cons, List.singleton_append]
              using hsettled

theorem length_resolve (names : List String) : (resolve names).1.length = names.length := by
  obtain ⟨us, ws, hresolve, hus, -, -⟩ := exists_settled_all (⟨nofun, nofun⟩ : Apart [] [] names)
  rw [resolve, hresolve]
  exact hus

theorem nodup_snoc_iff : (done ++ [u]).Nodup ↔ u ∉ done ∧ done.Nodup := by
  rw [← List.concat_eq_append, List.nodup_concat]

/-- Names that were distinct stay so exactly as long as no warning is given. -/
theorem nodup_resolveAfter_iff (done later : List String) :
    (resolveAfter done later).1.Nodup ↔ done.Nodup ∧ (resolveAfter done later).2 = [] := by
  induction later generalizing done with
  | nil => simp [resolveAfter]
  | cons name later ih =>
      rcases resolveAfter_cons done name later with ⟨u, hnew, -, hstep⟩ | ⟨hdone, -, hstep⟩
      · simp [hstep, ih, nodup_snoc_iff, hnew]
      · simp [hstep, ih, nodup_snoc_iff, hdone]

/-- The characters that a field name may have. -/
def Plain (c : Char) : Prop := 'a' ≤ c ∧ c ≤ 'z' ∨ 'A' ≤ c ∧ c ≤ 'Z' ∨ '0' ≤ c ∧ c ≤ '9' ∨ c = '_'

theorem plain_of_isDigit {c : Char} (h : c.isDigit = true) : Plain c := by
  obtain ⟨hlow, hhigh⟩ := (Bool.and_eq_true _ _).mp h
  exact .inr (.inr (.inl ⟨of_decide_eq_true hlow, of_decide_eq_true hhigh⟩))

theorem plain_of_isAlphanum {c : Char} (h : c.isAlphanum = true) : Plain c := by
  rcases (Bool.or_eq_true _ _).mp h with halpha | hdigit
  · rcases (Bool.or_eq_true _ _).mp halpha with hupper | hlower
    · exact .inr (.inl (of_decide_eq_true hupper))
    · obtain ⟨hlow, hhigh⟩ := (Bool.and_eq_true _ _).mp hlower
      exact .inl ⟨of_decide_eq_true hlow, of_decide_eq_true hhigh⟩
  · exact plain_of_isDigit hdigit

theorem plain_sanitize (name : String) : ∀ c ∈ (sanitize name).toList, Plain c := by
  intro c hc
  rw [sanitize, String.toList_ofList] at hc
  obtain ⟨d, -, rfl⟩ := List.mem_map.mp hc
  split
  · exact plain_of_isAlphanum ‹_›
  · exact .inr (.inr (.inr rfl))

theorem plain_suffixed (h : ∀ c ∈ name.toList, Plain c) (k : Nat) : ∀ c ∈ (suffixed name k).toList, Plain c := by
  intro c hc
  rw [suffixed, String.toList_append, String.toList_append, Nat.toString_eq_repr, Nat.toList_repr] at hc
  rcases List.mem_append.mp hc with hc | hc
  · rcases List.mem_append.mp hc with hc | hc
    · exact h c hc
    · exact .inr (.inr (.inr (List.mem_singleton.mp hc)))
  · exact plain_of_isDigit (Nat.isDigit_of_mem_toDigits (by decide) (by decide) hc)

theorem plain_resolveAfter (hdone : ∀ n ∈ done, ∀ c ∈ n.toList, Plain c)
    (hlater : ∀ n ∈ later, ∀ c ∈ n.toList, Plain c) :
    ∀ n ∈ (resolveAfter done later).1, ∀ c ∈ n.toList, Plain c := by
  induction later generalizing done with
  | nil => exact hdone
  | cons name later ih =>
      have hname := hlater name List.mem_cons_self
      have hrest := fun n hn => hlater n (List.mem_cons_of_mem name hn)
      have hsnoc : ∀ u : String, (∀ c ∈ u.toList, Plain c) → ∀ n ∈ done ++ [u], ∀ c ∈ n.toList, Plain c := by
        intro u hu n hn
        rcases List.mem_append.mp hn with hn | hn
        · exact hdone n hn
        · rwa [List.mem_singleton.mp hn]
      rcases resolveAfter_cons done name later with ⟨u, -, rfl | ⟨-, hform⟩, hstep⟩ | ⟨-, -, hstep⟩
      · rw [hstep]
        exact ih (hsnoc u hname) hrest
      · obtain ⟨k, -, -, rfl⟩ := mem_forms.mp hform
        rw [hstep]
        exact ih (hsnoc _ (plain_suffixed hname k)) hrest
      · rw [hstep]
        exact ih (hsnoc name hname) hrest

/-- A warning for field names is always for a name that is not unique. -/
theorem duplicate_of_mem_resolveAfter {w : Warning} (h : w ∈ (resolveAfter done later).2) :
    ∃ n, w = .duplicateFieldName n := by
  induction later generalizing done with
  | nil => cases h
  | cons name later ih =>
      rcases resolveAfter_cons done name later with ⟨u, -, -, hstep⟩ | ⟨-, -, hstep⟩
      · exact ih (hstep ▸ h)
      · rw [hstep] at h
        rcases List.mem_cons.mp h with rfl | h
        · exact ⟨name, rfl⟩
        · exact ih h

/-- The names keep their number and are settled one after the other. The warnings are those for the single
names in their order, and there is none exactly if all names are distinct in the end. -/
theorem resolve_exact (names : List String) :
    ∃ ws : List (List Warning), (resolve names).2 = ws.flatten ∧ ws.length = names.length ∧
      (resolve names).1.length = names.length ∧
      (∀ (i : Nat) (n : String), names[i]? = some n →
        ∃ u w, (resolve names).1[i]? = some u ∧ ws[i]? = some w ∧
          Settled (names.take i) ((resolve names).1.take i) (names.drop i) n u w) ∧
      ((resolve names).1.Nodup ↔ (resolve names).2 = []) := by
  have hstart : Apart [] [] names := ⟨nofun, nofun⟩
  obtain ⟨us, ws, hresolve, -, hws, hall⟩ := exists_settled_all hstart
  have hdistinct := nodup_resolveAfter_iff [] names
  rw [← resolve] at hresolve hdistinct
  refine ⟨ws, by rw [hresolve], hws, length_resolve names, fun i n hn => ?_, by simpa using hdistinct⟩
  rw [hresolve]
  exact hall i n hn

-- A suffixed form that a later name has already is passed over.
example : resolve ["a", "a", "a_1", "a_1", "a"] = (["a", "a_2", "a_1", "a_1_1", "a_3"], []) := by decide

end ArrayBridge.FieldName
