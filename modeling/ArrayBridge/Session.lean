import ArrayBridge.Engine
import ArrayBridge.Parameter
import ArrayBridge.Sql.Statement

/-!
A session: an engine and the configuration that every call on it uses.
-/
namespace ArrayBridge

/-- The engine is in a state of the type `σ`. -/
structure Session (σ : Type) where
  engine : σ
  config : Config
  deriving DecidableEq, Repr

namespace Session

variable {σ ρ α : Type}

def checkConfig (c : Config) : Except BridgeError Unit :=
  match c.fault? with
  | some f => .error (.config f)
  | none => .ok ()

/-- A call on the session. What it changed by then stays when an error ends the call. -/
abbrev Change (σ : Type) := ExceptT BridgeError (StateM (Session σ))

/-- The outcome, and the session after it. -/
def Change.runOn (x : Change σ α) (s : Session σ) : Except BridgeError α × Session σ := x.run.run s

/-- What a change makes of the session, if no error ends it. -/
def changed (s : Session σ) (x : Change σ Unit) : Except BridgeError (Session σ) :=
  let r := x.runOn s
  r.1.map fun _ => r.2

/-- A call on the engine. -/
def ask (call : σ → Except EngineError α × σ) : Change σ α := do
  let s ← get
  set { s with engine := (call s.engine).2 }
  MonadExcept.ofExcept ((call s.engine).1.mapError .engine)

/-- Takes over an engine that was just opened: the configuration has to be valid, and is applied to it. -/
def connect (E : Engine σ ρ) (opened : σ) (config : Config) : Except BridgeError (Session σ) :=
  changed ⟨opened, config⟩ do
    MonadExcept.ofExcept (checkConfig config)
    ask (E.setTimeout config.busyTimeout)
    ask (E.register config.charset)

/-- Tells the engine of a setting if it is a new one. -/
def tell [DecidableEq α] (call : α → σ → Except EngineError Unit × σ) (old new : α) : Change σ Unit :=
  if new ≠ old then ask (call new) else pure ()

/-- Replaces the configuration for all later calls. The engine is told only what changed. -/
def configure (E : Engine σ ρ) (config : Config) : Change σ Unit := do
  MonadExcept.ofExcept (checkConfig config)
  let old := (← get).config
  tell E.setTimeout old.busyTimeout config.busyTimeout
  tell E.register old.charset config.charset
  modify fun s => { s with config }

def configureTimeout (E : Engine σ ρ) (millis : Nat) : Change σ Unit := do
  configure E { (← get).config with busyTimeout := millis }

def setConfig (E : Engine σ ρ) (s : Session σ) (config : Config) : Except BridgeError (Session σ) :=
  s.changed (configure E config)

def setBusyTimeout (E : Engine σ ρ) (s : Session σ) (millis : Nat) : Except BridgeError (Session σ) :=
  s.changed (configureTimeout E millis)

/-- Prepares a statement, fills its slots, steps it to its end and turns what it yields into records. It is stepped
only if all arguments could be bound. -/
def run (E : Engine σ ρ) (sql : String) (args : List HostValue) : Change σ QueryResult := do
  let p ← ask (E.prepare (Sql.expand sql))
  let config := (← get).config
  let b ← MonadExcept.ofExcept (Parameter.bindAll (E.slots p) args config)
  let stepping ← ask fun e => (.ok (E.step p b.slots e).1, (E.step p b.slots e).2)
  MonadExcept.ofExcept (QueryResult.ofStepping stepping config)

/-- Runs one statement with the arguments in its slots. -/
def query (E : Engine σ ρ) (s : Session σ) (sql : String) (args : List HostValue) :
    Except BridgeError QueryResult × Session σ := (run E sql args).runOn s

/-- Runs one statement whose text is a host string. -/
def queryChars (E : Engine σ ρ) (s : Session σ) (sql : Bytes) (args : List HostValue) :
    Except BridgeError QueryResult × Session σ :=
  match Utf8.decode? (s.config.charset.toEngine sql) with
  | none => (.error (.invalidArgument .statementEncoding), s)
  | some cs => s.query E (String.ofList cs) args

end Session

end ArrayBridge
