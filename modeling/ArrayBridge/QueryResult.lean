import ArrayBridge.Cell
import ArrayBridge.FieldName
import ArrayBridge.StoredArray

/-!
What a statement yields when it is stepped, and the result that the host receives for it.
-/
namespace ArrayBridge

/-- Rows of one width, in the order in which they came. -/
structure RowBuffer where
  columns : Nat
  rows : List (List Cell)
  deriving DecidableEq, Repr

namespace RowBuffer

def new (columns : Nat) : RowBuffer := ⟨columns, []⟩

def push (b : RowBuffer) (row : List Cell) : Except BridgeError RowBuffer :=
  if row.length ≠ b.columns then .error (.invalidArgument (.unevenRow row.length b.columns))
  else .ok { b with rows := b.rows ++ [row] }

def size (b : RowBuffer) : Nat := b.rows.length

def isEmpty (b : RowBuffer) : Bool := b.rows.isEmpty

end RowBuffer

/-- A statement being stepped: its columns, the rows it yields, and the failure that ends it, if any. -/
structure Stepping where
  columns : List String
  rows : List (List Cell)
  failure : Option EngineError := none
  deriving DecidableEq, Repr

inductive QueryOutput
  | empty
  | records (table : RecordArray HostValue)
  deriving Repr

structure QueryResult where
  output : QueryOutput
  warnings : List Warning
  deriving Repr

namespace QueryResult

def empty : QueryResult := ⟨.empty, []⟩

def nullValue (config : Config) : HostValue := if config.nullAsNan then .double .nan else .empty

/-- The host value of a cell whose text is in the host's charset already. -/
def ofCell (config : Config) : Cell → Warned HostValue
  | .null => pure (nullValue config)
  | .integer i => pure (.double (.ofInt i.toInt))
  | .float x => pure (.double x)
  | .text bytes => pure (.text bytes)
  | .blob bytes =>
    if bytes.isEmpty then pure .empty
    else if config.typedBlobs then .numeric <$> NumericArray.ofBlob bytes
    else pure (.numeric (.ofBytes bytes))

/-- All rows, each cell as the host sees it. -/
def collect (s : Stepping) (config : Config) : Except BridgeError RowBuffer := do
  let buffer ← s.rows.foldlM (fun b row => b.push (row.map (Cell.toHost config.charset)))
    (RowBuffer.new s.columns.length)
  match s.failure with
  | some e => throw (.engine e)
  | none => return buffer

def fieldNames (columns : List String) (config : Config) : List String × List Warning :=
  let names := columns.map FieldName.sanitize
  if config.checkUniqueFields then FieldName.resolve names else (names, [])

def ofRows (columns : List String) (rows : List (List Cell)) (config : Config) : Except BridgeError QueryResult := do
  let names := fieldNames columns config
  let values : Warned (List (List HostValue)) := rows.mapM fun row => row.mapM (ofCell config)
  let r := values.runWith names.2
  let table ← RecordArray.new names.1 (← r.1)
  return ⟨.records table, r.2⟩

/-- Steps to the end, then turns the rows into records. Without columns or without rows the result is
empty and there are no warnings. -/
def ofStepping (s : Stepping) (config : Config) : Except BridgeError QueryResult := do
  if s.columns = [] then
    match s.failure with
    | some e => throw (.engine e)
    | none => return empty
  else
    let buffer ← collect s config
    if buffer.isEmpty then return empty
    ofRows s.columns buffer.rows config

end QueryResult

end ArrayBridge
