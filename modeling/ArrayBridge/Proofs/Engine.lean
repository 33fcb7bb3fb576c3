import ArrayBridge.Proofs.Traversal
import ArrayBridge.Sql.Engine

/-!
What a session relies on of its engine, in terms of what can be observed of the states, and that the small engine keeps
to it.
-/
namespace ArrayBridge

namespace Engine

variable {σ ρ κ : Type}

/-- Preparing a statement leaves the content as it is. -/
def PreparesOnly (E : Engine σ ρ) (content : σ → κ) : Prop := ∀ sql e, content (E.prepare sql e).2 = content e

/-- Each row that a statement yields has a cell for each of its columns. -/
def Rectangular (E : Engine σ ρ) : Prop :=
  ∀ p slots e, ∀ row ∈ (E.step p slots e).1.rows, row.length = (E.step p slots e).1.columns.length

/-- Times to wait and functions can be set, each without the other, and no statement touches the functions. Nothing is
said of statements and the time to wait. -/
structure Adjustable (E : Engine σ ρ) (timeout : σ → Nat) (mode : σ → Charset) : Prop where
  setTimeout_ok : ∀ millis e, millis ≤ 0x7FFFFFFF → (E.setTimeout millis e).1 = .ok ()
  timeout_setTimeout : ∀ millis e, millis ≤ 0x7FFFFFFF → timeout (E.setTimeout millis e).2 = millis
  mode_setTimeout : ∀ millis e, mode (E.setTimeout millis e).2 = mode e
  register_ok : ∀ charset e, (E.register charset e).1 = .ok ()
  mode_register : ∀ charset e, mode (E.register charset e).2 = charset
  timeout_register : ∀ charset e, timeout (E.register charset e).2 = timeout e
  mode_prepare : ∀ sql e, mode (E.prepare sql e).2 = mode e
  mode_step : ∀ p slots e, mode (E.step p slots e).2 = mode e

end Engine

namespace Sql

variable {e e' : State} {sql : String}

/-- Preparing a statement changes nothing but the time to wait. -/
theorem State.prepare_eq (e : State) (sql : String) :
    (e.prepare sql).2 = { e with busyTimeout := (e.prepare sql).2.busyTimeout } := by
  unfold State.prepare
  split <;> rfl

theorem State.store_of_insertInto {name : String} {c : Cell} (h : e.insertInto name c = .ok e') :
    e' = { e with store := e'.store } := by
  unfold State.insertInto at h
  split at h
  · cases h
  · split at h
    · cases h
    · cases h
      rfl

/-- A step changes nothing but the store. -/
theorem State.step_eq (e : State) (p : Prepared) (slots : List Cell) :
    (e.step p slots).2 = { e with store := (e.step p slots).2.store } := by
  unfold State.step
  cases p.statement with
  | blank | createTable _ _ _ | createView _ _ _ | read _ _ _ | listTables | busyTimeout _ => rfl
  | select columns =>
      dsimp only
      split <;> rfl
  | insert table value =>
      dsimp only
      split
      · rfl
      · split
        · rfl
        · rename_i hinsert
          exact State.store_of_insertInto hinsert

theorem State.store_prepare (e : State) (sql : String) : (e.prepare sql).2.store = e.store := by
  rw [e.prepare_eq]

theorem State.functionMode_prepare (e : State) (sql : String) :
    (e.prepare sql).2.functionMode = e.functionMode := by
  rw [e.prepare_eq]

theorem State.functionMode_step (e : State) (p : Prepared) (slots : List Cell) :
    (e.step p slots).2.functionMode = e.functionMode := by
  rw [e.step_eq]

theorem engine_preparesOnly : engine.PreparesOnly State.store := fun sql e => e.store_prepare sql

theorem engine_rectangular : engine.Rectangular := by
  intro p slots e
  change ∀ row ∈ (e.step p slots).1.rows, row.length = (e.step p slots).1.columns.length
  unfold State.step
  cases p.statement with
  | blank | createTable _ _ _ | createView _ _ _ => nofun
  | insert table value =>
      dsimp only
      split
      · nofun
      · split <;> nofun
  | read column table order =>
      intro row hrow
      obtain ⟨c, -, rfl⟩ := List.mem_map.mp hrow
      rfl
  | listTables =>
      intro row hrow
      obtain ⟨name, -, rfl⟩ := List.mem_map.mp hrow
      rfl
  | busyTimeout millis =>
      intro row hrow
      obtain rfl := List.mem_singleton.mp hrow
      rfl
  | select columns =>
      dsimp only
      split
      · nofun
      · rename_i cells hcells
        intro row hrow
        obtain rfl := List.mem_singleton.mp hrow
        rw [List.length_map, (Traversal.mapM_eq_ok_iff.mp hcells).length_eq]

theorem engine_adjustable : engine.Adjustable State.busyTimeout State.functionMode where
  setTimeout_ok _ _ _ := rfl
  timeout_setTimeout _ _ _ := rfl
  mode_setTimeout _ _ := rfl
  register_ok _ _ := rfl
  mode_register _ _ := rfl
  timeout_register _ _ := rfl
  mode_prepare sql e := e.functionMode_prepare sql
  mode_step p slots e := e.functionMode_step p slots

end Sql

end ArrayBridge
