/-!
Computations that may fail over a state. The state at a failure is the one that the steps before it left.
-/
namespace ArrayBridge.Stateful

variable {ε σ α β : Type} {x : ExceptT ε (StateM σ) α} {s t : σ}

theorem run_bind (x : ExceptT ε (StateM σ) α) (f : α → ExceptT ε (StateM σ) β) (s : σ) :
    (x >>= f).run.run s =
      match x.run.run s with
      | (.ok a, t) => (f a).run.run t
      | (.error e, t) => (.error e, t) := by
  simp only [ExceptT.run_bind, StateT.run_bind]
  cases x.run.run s with
  | mk r t => cases r <;> rfl

theorem run_bind_of_ok {a : α} (h : x.run.run s = (.ok a, t)) (f : α → ExceptT ε (StateM σ) β) :
    (x >>= f).run.run s = (f a).run.run t := by
  rw [run_bind, h]

theorem run_get_bind (f : σ → ExceptT ε (StateM σ) β) (s : σ) : (get >>= f).run.run s = (f s).run.run s :=
  rfl

theorem run_ofExcept (r : Except ε α) (s : σ) :
    (MonadExcept.ofExcept r : ExceptT ε (StateM σ) α).run.run s = (r, s) := by
  cases r <;> rfl

end ArrayBridge.Stateful
