import ArrayBridge.Engine
import ArrayBridge.Sql.Statement

/-!
A small engine: its tables and views in two namespaces, and what statements do to them.
-/
namespace ArrayBridge.Sql

inductive RelationKind
  | table
  | view
  deriving DecidableEq, Repr

/-- A table with one column whose values are unique, in the order in which they came, or a view. -/
structure Relation where
  kind : RelationKind
  name : String
  column : String
  values : List Cell
  deriving DecidableEq, Repr

/-- Temporary relations are looked up first and vanish when the session ends. -/
structure Store where
  main : List Relation := []
  temp : List Relation := []
  deriving DecidableEq, Repr

/-- Names are the same in any ASCII letter case. -/
def sameName (a b : String) : Bool := a.toLower = b.toLower

def lookup? (name : String) (rs : List Relation) : Option Relation := rs.find? (sameName ·.name name)

namespace Store

def find? (s : Store) (name : String) : Option Relation := (lookup? name s.temp).or (lookup? name s.main)

def add (s : Store) (temporary : Bool) (r : Relation) : Store :=
  if temporary then { s with temp := s.temp ++ [r] } else { s with main := s.main ++ [r] }

/-- Adds a value to the last place of the first relation of that name. -/
def appendTo (name : String) (c : Cell) : List Relation → List Relation
  | [] => []
  | r :: rs =>
    if sameName r.name name then { r with values := r.values ++ [c] } :: rs else r :: appendTo name c rs

def append (s : Store) (name : String) (c : Cell) : Store :=
  if (lookup? name s.temp).isSome then { s with temp := appendTo name c s.temp }
  else { s with main := appendTo name c s.main }

/-- What another session finds. -/
def reopened (s : Store) : Store := { s with temp := [] }

def reservedStart : List Char := "sqlite_".toList

def isReserved (name : String) : Bool := (name.toList.map Char.toLower).take 7 = reservedStart

/-- Names like `sqlite_%`, where `_` is any one character and `%` any text. -/
def isHidden (name : String) : Bool :=
  (name.toList.map Char.toLower).take 6 = "sqlite".toList && 7 ≤ name.length

/-- The names of all relations in ascending order, without the hidden ones of the main namespace. -/
def listed (s : Store) : List String :=
  (((s.main.map Relation.name).filter (!isHidden ·)) ++ s.temp.map Relation.name).mergeSort fun a b => a ≤ b

end Store

/-- The store, with the settings that a session applies. -/
structure State where
  store : Store
  busyTimeout : Nat
  functionMode : Charset
  deriving DecidableEq, Repr

namespace State

/-- A state to which no session has applied its settings yet. -/
def opened (store : Store) : State := ⟨store, 0, .convert⟩

def checkNew (e : State) (temporary : Bool) (name : Name) (sql : String) : Except Fault Unit := do
  if Store.isReserved name.value then throw (.reservedName name.value)
  match lookup? name.value (if temporary then e.store.temp else e.store.main) with
  | some ⟨.table, _, _, _⟩ => throw (.text (.tableExists name.written) sql name.offset)
  | some ⟨.view, _, _, _⟩ => throw (.text (.viewExists name.written) sql name.offset)
  | none => return ()

/-- The result columns that a statement may have. -/
def maxColumns : Nat := 2000

def checkColumns (count : Nat) : Except Fault Unit :=
  if maxColumns < count then .error .tooManyColumns else .ok ()

/-- The names that a statement uses have to fit the store before it is stepped. -/
def check (e : State) (p : Prepared) : Except Fault Unit := do
  match p.statement with
  | .createTable temporary name _ | .createView temporary name _ => checkNew e temporary name p.sql
  | .insert table _ =>
    match e.store.find? table.value with
    | none => throw (.noSuchTable table.value)
    | some ⟨.view, name, _, _⟩ => throw (.modifiedView name)
    | some ⟨.table, _, _, _⟩ => return ()
  | .read column table order =>
    match e.store.find? table.value with
    | none => throw (.noSuchTable table.value)
    | some r =>
      if !sameName column.value r.column then throw (.text (.noSuchColumn column.value) p.sql column.offset)
      if r.kind = .view ∨ !sameName order.value "rowid" then
        throw (.text (.noSuchColumn order.value) p.sql order.offset)
  | .select columns => checkColumns columns.length
  | .blank | .listTables | .busyTimeout _ => return ()

def readChecked (e : State) (sql : String) : Except Fault Prepared := do
  let p ← read sql
  check e p
  return p

/-- A statement that gives a new time to wait is carried out as soon as it is prepared. -/
def prepare (e : State) (sql : String) : Except Fault Prepared × State :=
  match e.readChecked sql with
  | .ok ⟨.busyTimeout (some millis), slots, sql⟩ =>
    (.ok ⟨.busyTimeout (some millis), slots, sql⟩, { e with busyTimeout := millis })
  | r => (r, e)

/-- What an operand is, given the cells of the slots. -/
def operandValue (slots : List Cell) : Operand → Cell
  | .slot n => (slots[n - 1]?).getD .null
  | .string value => .text (Utf8.encode value)
  | .number value => .integer (.ofNat value)

def exprValue (e : State) (slots : List Cell) : Expr → Except Fault Cell
  | .operand x => .ok (operandValue slots x)
  | .call f args => f.call e.functionMode (args.map (operandValue slots))

/-- A value that equals one stored already is refused; NULLs never equal. -/
def insertInto (e : State) (name : String) (c : Cell) : Except Fault State :=
  match e.store.find? name with
  | none => .error (.noSuchTable name)
  | some r =>
    if r.values.any (·.sameAs c) then .error (.notUnique r.name r.column)
    else .ok { e with store := e.store.append name c }

/-- Runs a statement to its end. One without result columns may change the store. -/
def step (e : State) (p : Prepared) (slots : List Cell) : Stepping × State :=
  let failed (columns : List String) (f : Fault) : Stepping × State :=
    (⟨columns, [], some f.toEngineError⟩, e)
  match p.statement with
  | .blank => failed [] .misuse
  | .createTable temporary name column =>
    (⟨[], [], none⟩, { e with store := e.store.add temporary ⟨.table, name.value, column.value, []⟩ })
  | .createView temporary name column =>
    (⟨[], [], none⟩, { e with store := e.store.add temporary ⟨.view, name.value, column.value, []⟩ })
  | .insert table value =>
    match exprValue e slots value with
    | .error f => failed [] f
    | .ok c =>
      match insertInto e table.value c with
      | .error f => failed [] f
      | .ok e => (⟨[], [], none⟩, e)
  | .read column table _ =>
    let values := ((e.store.find? table.value).map Relation.values).getD []
    (⟨[column.value], values.map ([·]), none⟩, e)
  | .select columns =>
    let names := columns.map (·.2)
    match columns.mapM fun c => exprValue e slots c.1 with
    | .error f => failed names f
    | .ok cells => (⟨names, [cells], none⟩, e)
  | .listTables =>
    (⟨["tablename"], e.store.listed.map fun n => [.text (Utf8.encode n.toList)], none⟩, e)
  | .busyTimeout millis => (⟨["timeout"], [[.integer (.ofNat (millis.getD e.busyTimeout))]], none⟩, e)

end State

/-- The engine that a session runs on. -/
def engine : Engine State Prepared where
  prepare sql e := ((e.prepare sql).1.mapError Fault.toEngineError, (e.prepare sql).2)
  slots := Prepared.slots
  step p slots e := e.step p slots
  setTimeout millis e := (.ok (), { e with busyTimeout := millis })
  register charset e := (.ok (), { e with functionMode := charset })

end ArrayBridge.Sql
