import Mathlib.Data.List.Forall2

/-!
Lists whose items are taken in turn by a function that may fail: all of them are taken, or the first failure is
the result.
-/
namespace ArrayBridge.Traversal

variable {ε α β : Type} {f : α → Except ε β} {e : ε}

theorem map_eq_ok_iff {r : Except ε α} {g : α → β} {y : β} : r.map g = .ok y ↔ ∃ x, r = .ok x ∧ g x = y := by
  cases r <;> simp [Except.map]

theorem map_eq_error_iff {r : Except ε α} {g : α → β} : r.map g = .error e ↔ r = .error e := by
  cases r <;> simp [Except.map]

theorem mapM_cons_of_ok {x : α} {y : β} (h : f x = .ok y) (xs : List α) :
    (x :: xs).mapM f = (xs.mapM f).map (y :: ·) := by
  rw [List.mapM_cons, h]
  cases xs.mapM f <;> rfl

theorem mapM_cons_of_error {x : α} (h : f x = .error e) (xs : List α) : (x :: xs).mapM f = .error e := by
  rw [List.mapM_cons, h]
  rfl

theorem mapM_eq_ok_iff {xs : List α} {ys : List β} :
    xs.mapM f = .ok ys ↔ List.Forall₂ (fun x y => f x = .ok y) xs ys := by
  induction xs generalizing ys with
  | nil => simp [pure, Except.pure, eq_comm]
  | cons x xs ih =>
      rw [List.forall₂_cons_left_iff]
      cases hx : f x with
      | error e => simp [mapM_cons_of_error hx]
      | ok y =>
          simp only [mapM_cons_of_ok hx, map_eq_ok_iff, ih, Except.ok.injEq]
          constructor
          · rintro ⟨zs, hzs, rfl⟩
            exact ⟨y, zs, rfl, hzs, rfl⟩
          · rintro ⟨-, zs, rfl, hzs, rfl⟩
            exact ⟨zs, hzs, rfl⟩

theorem exists_of_mem {xs : List α} {ys : List β} {y : β} (h : xs.mapM f = .ok ys) (hy : y ∈ ys) :
    ∃ x ∈ xs, f x = .ok y := by
  have hall := mapM_eq_ok_iff.mp h
  clear h
  induction hall with
  | nil => cases hy
  | @cons x z xs ys hxz hall ih =>
      rcases List.mem_cons.mp hy with rfl | hy
      · exact ⟨x, List.mem_cons_self, hxz⟩
      · obtain ⟨a, ha, hay⟩ := ih hy
        exact ⟨a, List.mem_cons_of_mem x ha, hay⟩

theorem mapM_eq_error_iff {xs : List α} :
    xs.mapM f = .error e ↔
      ∃ before x after, xs = before ++ x :: after ∧ (∀ y ∈ before, ∃ z, f y = .ok z) ∧ f x = .error e := by
  constructor
  · intro h
    induction xs with
    | nil => cases h
    | cons x xs ih =>
        cases hx : f x with
        | error e' =>
            rw [mapM_cons_of_error hx] at h
            exact ⟨[], x, xs, rfl, nofun, hx.trans (congrArg _ (Except.error.inj h))⟩
        | ok y =>
            rw [mapM_cons_of_ok hx, map_eq_error_iff] at h
            obtain ⟨before, z, after, rfl, hbefore, hz⟩ := ih h
            refine ⟨x :: before, z, after, rfl, fun a ha => ?_, hz⟩
            rcases List.mem_cons.mp ha with rfl | ha
            · exact ⟨y, hx⟩
            · exact hbefore a ha
  · rintro ⟨before, x, after, rfl, hbefore, hx⟩
    induction before with
    | nil => exact mapM_cons_of_error hx after
    | cons a before ih =>
        obtain ⟨y, hy⟩ := hbefore a List.mem_cons_self
        rw [List.cons_append, mapM_cons_of_ok hy, map_eq_error_iff]
        exact ih fun b hb => hbefore b (List.mem_cons_of_mem a hb)

theorem mapM_flatten (xss : List (List α)) :
    xss.flatten.mapM f = (xss.mapM fun xs : List α => xs.mapM f).map List.flatten := by
  induction xss with
  | nil => rfl
  | cons xs xss ih =>
      rw [List.flatten_cons, List.mapM_append, ih, List.mapM_cons]
      cases xs.mapM f with
      | error e => rfl
      | ok ys => cases xss.mapM fun xs : List α => xs.mapM f <;> rfl

end ArrayBridge.Traversal
