import ArrayBridge.Cell
import ArrayBridge.StoredArray

/-!
Arguments of a statement: which values fill its slots, and the cell each of them is bound as.
-/
namespace ArrayBridge.Parameter

/-- The values for the slots. A cell array that stands alone is unpacked, one level deep. -/
def resolve (slots : Nat) (args : List HostValue) : Except BridgeError (List HostValue) := do
  if slots = 0 ∧ args ≠ [] then throw (.unexpectedArguments 0 args.length)
  let values ←
    match args with
    | [.cell items] => pure items
    | .cell _ :: _ :: _ => throw (.unexpectedArguments 1 args.length)
    | _ => pure args
  if values.length > slots then throw (.unexpectedArguments slots values.length)
  return values

/-- A number as a cell: floats stay floats, all else is a whole number. -/
def ofScalar (a : NumericArray) : Except BridgeError Cell :=
  let cell? := if a.type.isFloat then (a.double? 0).map .float else (a.int64? 0).map .integer
  match cell? with
  | some c => .ok c
  | none => .error (.invalidArgument (.unreadableScalar a.type))

def ofArray (config : Config) (a : NumericArray) : Except BridgeError Cell :=
  if a.type = .char then .ok (.text (config.charset.toEngine (a.charBytes.getD [])))
  else if a.isScalar then ofScalar a
  else if config.typedBlobs then (a.toBlob config).map .blob
  else .ok (.blob a.data)

/-- The cell that a value is bound as. An empty value of any class is a NULL. -/
def ofValue (config : Config) (v : HostValue) : Except BridgeError Cell :=
  if v.isEmpty then .ok .null
  else
    match v with
    | .complex .. | .cell _ | .struct _ => .error (.unsupportedType v.className)
    | .object name => .error (.invalidArgument (.unbindable name))
    | .text bytes => .ok (.text (config.charset.toEngine bytes))
    | .numeric a => ofArray config a

/-- A call that binds the slots of a statement. What they hold by then stays when an error ends the call. -/
abbrev Binding := ExceptT BridgeError (StateM (List Cell))

/-- The outcome, and what the slots hold after it. -/
def Binding.runOn (x : Binding α) (held : List Cell) : Except BridgeError α × List Cell := x.run.run held

/-- The engine's answer for a slot that the statement does not have. -/
def noSuchSlot : BridgeError := .engine ⟨25, "column index out of range"⟩

/-- Binds one slot. The first has the number 1. -/
def bindSlot (k : Nat) (c : Cell) : Binding Unit := do
  let held ← get
  if 1 ≤ k ∧ k ≤ held.length then set (held.set (k - 1) c) else throw noSuchSlot

/-- Binds every slot, those without a value to NULL, and gives the number of values. All values are encoded
before the first one is bound. -/
def fill (args : List HostValue) (config : Config) : Binding Nat := do
  let slots := (← get).length
  let values ← MonadExcept.ofExcept (resolve slots args)
  let cells ← MonadExcept.ofExcept (values.mapM (ofValue config))
  (List.range' 1 slots).forM fun k => bindSlot k ((cells[k - 1]?).getD .null)
  return cells.length

/-- The slots of a statement as the engine reads them after binding, and how many of them hold a value given. -/
structure Bound where
  given : Nat
  slots : List Cell
  deriving DecidableEq, Repr

/-- Fills the slots of a statement that was just prepared. -/
def bindAll (slots : Nat) (args : List HostValue) (config : Config) : Except BridgeError Bound :=
  match (fill args config).runOn (List.replicate slots .null) with
  | (.ok given, held) => .ok ⟨given, held.map Cell.bound⟩
  | (.error e, _) => .error e

end ArrayBridge.Parameter
