import ArrayBridge.QueryResult

/-!
What a session asks of a database engine.
-/
namespace ArrayBridge

/-- An engine with states `σ` and prepared statements `ρ`. A call leaves a state behind it, also where it fails. -/
structure Engine (σ ρ : Type) where
  prepare : String → σ → Except EngineError ρ × σ
  slots : ρ → Nat
  /-- Runs a prepared statement to its end, with cells in its slots. -/
  step : ρ → List Cell → σ → Stepping × σ
  /-- Sets how long to wait for a lock. -/
  setTimeout : Nat → σ → Except EngineError Unit × σ
  /-- Adds the functions for text in a charset, in place of those for another. -/
  register : Charset → σ → Except EngineError Unit × σ

end ArrayBridge
