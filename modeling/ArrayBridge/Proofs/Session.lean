import ArrayBridge.Proofs.Engine
import ArrayBridge.Proofs.Parameter
import ArrayBridge.Session

/-!
What a call on a session answers, and the session after it.
-/
namespace ArrayBridge.Session

open Parameter (fill bindAll Filled)

variable {σ ρ κ α : Type} {E : Engine σ ρ} {s s' : Session σ} {sql : String} {args : List HostValue}

theorem run_ask {r : Except EngineError α} {engine : σ} {call : σ → Except EngineError α × σ}
    (h : call s.engine = (r, engine)) :
    (ask call).run.run s = (r.mapError .engine, { s with engine }) := by
  have hsame : (call s.engine).1.mapError BridgeError.engine = r.mapError .engine := by rw [h]
  have hstate : (call s.engine).2 = engine := by rw [h]
  subst hstate
  rw [← hsame, ask]
  exact Stateful.run_ofExcept _ _

/-- The answer to a statement, and the session after it. The engine takes a step only in the last case. -/
inductive Answered (E : Engine σ ρ) (s : Session σ) (sql : String) (args : List HostValue) :
    Except BridgeError QueryResult → Session σ → Prop
  | unprepared {e : EngineError} {engine : σ} (hprepare : E.prepare (Sql.expand sql) s.engine = (.error e, engine)) :
      Answered E s sql args (.error (.engine e)) { s with engine }
  | unbound {p : ρ} {engine : σ} {e : BridgeError} {held : List Cell}
      (hprepare : E.prepare (Sql.expand sql) s.engine = (.ok p, engine))
      (hfill : Filled s.config args (List.replicate (E.slots p) .null) (.error e) held) :
      Answered E s sql args (.error e) { s with engine }
  | stepped {p : ρ} {prepared engine : σ} {n : Nat} {held : List Cell} {stepping : Stepping}
      (hprepare : E.prepare (Sql.expand sql) s.engine = (.ok p, prepared))
      (hfill : Filled s.config args (List.replicate (E.slots p) .null) (.ok n) held)
      (hstep : E.step p (held.map Cell.bound) prepared = (stepping, engine)) :
      Answered E s sql args (QueryResult.ofStepping stepping s.config) { s with engine }

theorem query_of_unprepared {e : EngineError} {engine : σ}
    (h : E.prepare (Sql.expand sql) s.engine = (.error e, engine)) :
    s.query E sql args = (.error (.engine e), { s with engine }) := by
  rw [query, Change.runOn, run, Stateful.run_bind, run_ask h]
  rfl

theorem query_of_unbound {p : ρ} {engine : σ} {e : BridgeError}
    (h : E.prepare (Sql.expand sql) s.engine = (.ok p, engine)) (hbind : bindAll (E.slots p) args s.config = .error e) :
    s.query E sql args = (.error e, { s with engine }) := by
  rw [query, Change.runOn, run, Stateful.run_bind_of_ok (run_ask h), Stateful.run_get_bind, Stateful.run_bind,
    Stateful.run_ofExcept, hbind]

theorem query_of_bound {p : ρ} {prepared engine : σ} {b : Parameter.Bound} {stepping : Stepping}
    (h : E.prepare (Sql.expand sql) s.engine = (.ok p, prepared)) (hbind : bindAll (E.slots p) args s.config = .ok b)
    (hstep : E.step p b.slots prepared = (stepping, engine)) :
    s.query E sql args = (QueryResult.ofStepping stepping s.config, { s with engine }) := by
  have hask : (ask fun e => (.ok (E.step p b.slots e).1, (E.step p b.slots e).2)).run.run { s with engine := prepared } =
      (.ok stepping, { s with engine }) := run_ask (r := .ok stepping) (by dsimp only; rw [hstep])
  rw [query, Change.runOn, run, Stateful.run_bind_of_ok (run_ask h), Stateful.run_get_bind, Stateful.run_bind,
    Stateful.run_ofExcept, hbind]
  dsimp only
  rw [Stateful.run_bind_of_ok hask, Stateful.run_ofExcept]

theorem Answered.query_eq {r : Except BridgeError QueryResult} (h : Answered E s sql args r s') :
    s.query E sql args = (r, s') := by
  cases h with
  | unprepared hprepare => exact query_of_unprepared hprepare
  | unbound hprepare hfill => exact query_of_unbound hprepare (Parameter.bindAll_of_filled hfill)
  | stepped hprepare hfill hstep => exact query_of_bound hprepare (Parameter.bindAll_of_filled hfill) hstep

theorem exists_answered (E : Engine σ ρ) (s : Session σ) (sql : String) (args : List HostValue) :
    ∃ r s', Answered E s sql args r s' := by
  rcases hprepare : E.prepare (Sql.expand sql) s.engine with ⟨prepared, engine⟩
  cases prepared with
  | error e => exact ⟨_, _, .unprepared hprepare⟩
  | ok p =>
      obtain ⟨r, held, hfill⟩ := Parameter.exists_filled s.config args (List.replicate (E.slots p) .null)
      cases r with
      | error e => exact ⟨_, _, .unbound hprepare hfill⟩
      | ok n => exact ⟨_, _, .stepped hprepare hfill rfl⟩

theorem query_eq_iff {r : Except BridgeError QueryResult} :
    s.query E sql args = (r, s') ↔ Answered E s sql args r s' := by
  refine ⟨fun h => ?_, Answered.query_eq⟩
  obtain ⟨r₁, s₁, hanswered⟩ := exists_answered E s sql args
  cases h.symm.trans hanswered.query_eq
  exact hanswered

/-- A statement whose values cannot all be bound has no slot filled and takes no step, and where preparing it leaves the
content of the database as it is, so does the call. Otherwise every slot is filled before the first step: with the cells
of the values in their order, and with NULL behind them. -/
theorem binding_exact (E : Engine σ ρ) (content : σ → κ) :
    (∀ config args held r after, (fill args config).runOn held = (r, after) ↔ Filled config args held r after) ∧
      (∀ config args slots, ∃ r held, Filled config args (List.replicate slots .null) r held ∧
        bindAll slots args config = r.map fun n => ⟨n, held.map Cell.bound⟩) ∧
      (∀ s sql args r s', query E s sql args = (r, s') ↔ Answered E s sql args r s') ∧
      (E.PreparesOnly content → ∀ (s : Session σ) sql args p engine e held,
        E.prepare (Sql.expand sql) s.engine = (.ok p, engine) →
        Filled s.config args (List.replicate (E.slots p) .null) (.error e) held →
        ∃ t, query E s sql args = (.error e, t) ∧ t.config = s.config ∧ content t.engine = content s.engine) := by
  refine ⟨fun _ _ _ _ _ => Parameter.runOn_fill_eq_iff, fun config args slots => ?_, fun _ _ _ _ _ => query_eq_iff, ?_⟩
  · obtain ⟨r, held, hfill⟩ := Parameter.exists_filled config args (List.replicate slots .null)
    exact ⟨r, held, hfill, Parameter.bindAll_of_filled hfill⟩
  · intro hcontent s sql args p engine e held hprepare hfill
    refine ⟨_, (Answered.unbound hprepare hfill).query_eq, rfl, ?_⟩
    have hsame := hcontent (Sql.expand sql) s.engine
    rwa [hprepare] at hsame

/-- A statement without slots is given a value. -/
theorem binding_exact_superfluous :
    ∃ t, query Sql.engine ⟨.opened {}, {}⟩ "PRAGMA busy_timeout = 5" [.text [65]] =
        (.error (.unexpectedArguments 0 1), t) ∧ t.config = {} ∧ t.engine.store = {} := by
  refine (binding_exact Sql.engine Sql.State.store).2.2.2 Sql.engine_preparesOnly ⟨.opened {}, {}⟩ _ _
    ⟨.busyTimeout (some 5), 0, "PRAGMA busy_timeout = 5"⟩ ⟨{}, 5, .convert⟩ _ [] ?_ (.unresolved ?_)
  · decide +kernel
  · rfl

end ArrayBridge.Session
