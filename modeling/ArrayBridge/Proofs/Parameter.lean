import ArrayBridge.Parameter
import ArrayBridge.Proofs.Stateful
import ArrayBridge.Proofs.Traversal

/-!
Filling the slots of a statement. The slots are written one by one, but only when nothing can fail any more, so
a call fills all of them or none.
-/
namespace ArrayBridge.Parameter

variable {slots : Nat} {args values : List HostValue} {config : Config} {held after : List Cell}

theorem resolve_eq_ok_iff :
    resolve slots args = .ok values ↔
      values.length ≤ slots ∧
        (args = [.cell values] ∧ 0 < slots ∨ args = values ∧ ∀ items rest, args ≠ .cell items :: rest) := by
  unfold resolve
  dsimp only [bind, Except.bind, pure, Except.pure, throw, throwThe, MonadExceptOf.throw]
  by_cases hzero : slots = 0 ∧ args ≠ []
  · obtain ⟨rfl, hargs⟩ := hzero
    simp only [Nat.le_zero_eq, List.length_eq_zero_iff]
    grind
  · rw [if_neg hzero]
    split
    · have hpos : 0 < slots := Nat.pos_of_ne_zero fun h => hzero ⟨h, List.cons_ne_nil _ _⟩
      grind
    · grind
    · rename_i hone hmore
      have hfirst : ∀ items rest, args ≠ .cell items :: rest := by
        rintro items (_ | ⟨second, rest⟩) h
        · exact hone items h
        · exact hmore items second rest h
      grind

theorem runOn_bindSlot {i : Nat} (h : i < held.length) (c : Cell) :
    (bindSlot (i + 1) c).runOn held = (.ok (), held.set i c) := by
  have hk : 1 ≤ i + 1 ∧ i + 1 ≤ held.length := ⟨Nat.le_add_left 1 i, h⟩
  rw [Binding.runOn, bindSlot, Stateful.run_get_bind, if_pos hk]
  rfl

theorem runOn_forM (cell : Nat → Cell) (done old : List Cell) :
    Binding.runOn ((List.range' (done.length + 1) old.length).forM fun k => bindSlot k (cell (k - 1))) (done ++ old) =
      (.ok (), done ++ (List.range' done.length old.length).map cell) := by
  -- The slots that are done stay in front, and slot numbers begin at one.
  induction old generalizing done with
  | nil => rfl
  | cons c old ih =>
      have hstep : (bindSlot (done.length + 1) (cell done.length)).runOn (done ++ c :: old) =
          (.ok (), done ++ [cell done.length] ++ old) := by
        rw [runOn_bindSlot (by simp)]
        simp
      have hrest := ih (done ++ [cell done.length])
      rw [List.length_append, List.length_singleton] at hrest
      rw [List.length_cons, List.range'_succ, List.range'_succ, List.map_cons]
      refine (Stateful.run_bind_of_ok hstep _).trans (hrest.trans ?_)
      simp

theorem map_range'_getD {cells : List Cell} {n : Nat} (h : cells.length ≤ n) :
    (List.range' 0 n).map (fun i => (cells[i]?).getD .null) = cells ++ List.replicate (n - cells.length) .null := by
  refine List.ext_getElem (by simp; omega) fun i hi _ => ?_
  rw [List.getElem_map, List.getElem_range', List.getElem_append]
  split <;> simp [*]

theorem runOn_fill (args : List HostValue) (config : Config) (held : List Cell) :
    (fill args config).runOn held =
      match resolve held.length args with
      | .error e => (.error e, held)
      | .ok values =>
        match values.mapM (ofValue config) with
        | .error e => (.error e, held)
        | .ok cells => (.ok cells.length, cells ++ List.replicate (held.length - cells.length) .null) := by
  rw [Binding.runOn, fill, Stateful.run_get_bind]
  cases hresolve : resolve held.length args with
  | error e => simp only [hresolve, Stateful.run_bind, Stateful.run_ofExcept]
  | ok values =>
      cases hcells : values.mapM (ofValue config) with
      | error e => simp only [hresolve, hcells, Stateful.run_bind, Stateful.run_ofExcept]
      | ok cells =>
          have hlen : values.length = cells.length := (Traversal.mapM_eq_ok_iff.mp hcells).length_eq
          have hfit : cells.length ≤ held.length := hlen ▸ (resolve_eq_ok_iff.mp hresolve).1
          have hloop := runOn_forM (fun i => (cells[i]?).getD .null) [] held
          rw [List.length_nil, map_range'_getD hfit, Binding.runOn] at hloop
          simp only [List.nil_append, Nat.zero_add] at hloop
          simp only [hresolve, hcells, Stateful.run_bind, Stateful.run_ofExcept, hloop]
          rfl

/-- What filling the slots comes to, and what they hold after it. -/
inductive Filled (config : Config) (args : List HostValue) (held : List Cell) :
    Except BridgeError Nat → List Cell → Prop
  | unresolved {e : BridgeError} (hresolve : resolve held.length args = .error e) :
      Filled config args held (.error e) held
  | unencodable {before rest : List HostValue} {v : HostValue} {e : BridgeError}
      (hresolve : resolve held.length args = .ok (before ++ v :: rest))
      (hbefore : ∀ u ∈ before, ∃ c, ofValue config u = .ok c) (hv : ofValue config v = .error e) :
      Filled config args held (.error e) held
  | filled {values : List HostValue} {cells : List Cell} (hresolve : resolve held.length args = .ok values)
      (hfit : values.length ≤ held.length) (hcells : List.Forall₂ (fun v c => ofValue config v = .ok c) values cells) :
      Filled config args held (.ok values.length) (cells ++ List.replicate (held.length - values.length) .null)

theorem exists_filled (config : Config) (args : List HostValue) (held : List Cell) :
    ∃ r after, Filled config args held r after := by
  cases hresolve : resolve held.length args with
  | error e => exact ⟨_, _, .unresolved hresolve⟩
  | ok values =>
      cases hcells : values.mapM (ofValue config) with
      | error e =>
          obtain ⟨before, v, rest, rfl, hbefore, hv⟩ := Traversal.mapM_eq_error_iff.mp hcells
          exact ⟨_, _, .unencodable hresolve hbefore hv⟩
      | ok cells =>
          have hfit := (resolve_eq_ok_iff.mp hresolve).1
          exact ⟨_, _, .filled hresolve hfit (Traversal.mapM_eq_ok_iff.mp hcells)⟩

theorem Filled.runOn_eq {r : Except BridgeError Nat} (h : Filled config args held r after) :
    (fill args config).runOn held = (r, after) := by
  rw [runOn_fill]
  cases h with
  | unresolved hresolve => rw [hresolve]
  | @unencodable before rest v e hresolve hbefore hv =>
      have hcells := Traversal.mapM_eq_error_iff.mpr ⟨before, v, rest, rfl, hbefore, hv⟩
      simp only [hresolve, hcells]
  | filled hresolve _ hall => simp only [hresolve, Traversal.mapM_eq_ok_iff.mpr hall, hall.length_eq]

theorem runOn_fill_eq_iff {r : Except BridgeError Nat} :
    (fill args config).runOn held = (r, after) ↔ Filled config args held r after := by
  refine ⟨fun h => ?_, Filled.runOn_eq⟩
  obtain ⟨r₁, after₁, hfilled⟩ := exists_filled config args held
  cases h.symm.trans hfilled.runOn_eq
  exact hfilled

-- A slot without a value loses what it held, but keeps it when a value cannot be bound.
example : (fill [.cell [.ofText "a"]] {}).runOn [.integer 1, .integer 2] = (.ok 1, [.text [97], .null]) := by decide
example : (fill [.ofText "a", .object "f"] {}).runOn [.integer 1, .integer 2] =
    (.error (.invalidArgument (.unbindable "f")), [.integer 1, .integer 2]) := by decide

theorem bindAll_of_filled {r : Except BridgeError Nat} (h : Filled config args (List.replicate slots .null) r after) :
    bindAll slots args config = r.map fun n => ⟨n, after.map Cell.bound⟩ := by
  rw [bindAll, h.runOn_eq]
  cases r <;> rfl

end ArrayBridge.Parameter
