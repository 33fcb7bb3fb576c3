import ArrayBridge.Error
import ArrayBridge.Proofs.Stateful

/-!
Computations that note warnings: what they come to does not depend on the warnings there are already, and they
add to them at the end.
-/
namespace ArrayBridge.Warned

variable {α β : Type} {x : Warned α} {f : α → Warned β}

/-- The outcome of a computation, and the warnings that are added where it is a value. -/
structure Yields (x : Warned α) (r : Except BridgeError α) (noted : List Warning) : Prop where
  outcome : ∀ w, (x.runWith w).1 = r
  added : ∀ w a, r = .ok a → (x.runWith w).2 = w ++ noted

theorem runWith_bind (x : Warned α) (f : α → Warned β) (w : List Warning) :
    (x >>= f).runWith w =
      match x.runWith w with
      | (.ok a, v) => (f a).runWith v
      | (.error e, v) => (.error e, v) := by
  rw [runWith, Stateful.run_bind]
  cases hrun : x.run.run w with
  | mk r v => cases r <;> simp only [runWith, hrun]

theorem runWith_map (f : α → β) (x : Warned α) (w : List Warning) :
    (f <$> x).runWith w = ((x.runWith w).1.map f, (x.runWith w).2) := by
  rw [← bind_pure_comp, runWith_bind]
  cases x.runWith w with
  | mk r v => cases r <;> rfl

theorem Yields.of_runWith {r : Except BridgeError α} {noted : List Warning}
    (h : ∀ w, x.runWith w = (r, w ++ noted)) : Yields x r noted :=
  ⟨fun w => congrArg Prod.fst (h w), fun w _ _ => congrArg Prod.snd (h w)⟩

theorem Yields.runWith_eq {a : α} {noted : List Warning} (h : Yields x (.ok a) noted) (w : List Warning) :
    x.runWith w = (.ok a, w ++ noted) :=
  Prod.ext (h.outcome w) (h.added w a rfl)

theorem Yields.pure (a : α) : Yields (pure a) (.ok a) [] :=
  .of_runWith fun w => congrArg _ (List.append_nil w).symm

theorem Yields.bind {g : α → Except BridgeError β} {r : Except BridgeError α} {noted more : List Warning}
    (hx : Yields x r noted) (hf : ∀ a, Yields (f a) (g a) more) : Yields (x >>= f) (r >>= g) (noted ++ more) := by
  cases r with
  | error e =>
      refine ⟨fun w => ?_, nofun⟩
      have hw := hx.outcome w
      rw [runWith_bind]
      cases hrun : x.runWith w with
      | mk s v =>
          obtain rfl : s = .error e := by rw [← hw, hrun]
          rfl
  | ok a =>
      have hrun : ∀ w, (x >>= f).runWith w = (f a).runWith (w ++ noted) := fun w => by
        rw [runWith_bind, hx.runWith_eq]
      constructor
      · intro w
        rw [hrun, (hf a).outcome]
        rfl
      · intro w b hb
        rw [hrun, (hf a).added _ b hb, List.append_assoc]

theorem Yields.mapM {g : α → Except BridgeError β} {n : α → List Warning} (h : ∀ a, Yields (f a) (g a) (n a))
    (xs : List α) : Yields (xs.mapM f) (xs.mapM g) (xs.flatMap n) := by
  induction xs with
  | nil => exact Yields.pure []
  | cons a as ih =>
      rw [List.mapM_cons, List.mapM_cons, List.flatMap_cons, ← List.append_nil (as.flatMap n)]
      exact (h a).bind fun b => ih.bind fun bs => Yields.pure (b :: bs)

end ArrayBridge.Warned
