import ArrayBridge.Sql.Function
import ArrayBridge.Sql.Token
import ArrayBridge.Unicode.Property

/-!
The statements that the engine knows, and the reading of their text. A text that begins as none of them is
a syntax error at the first token that cannot go on.
-/
namespace ArrayBridge.Sql

inductive Operand
  | slot (number : Nat)
  | string (value : List Char)
  | number (value : Nat)
  deriving DecidableEq, Repr

inductive Expr
  | operand (x : Operand)
  | call (f : Builtin) (args : List Operand)
  deriving DecidableEq, Repr

/-- A name with the text that was written for it and where. -/
structure Name where
  value : String
  written : String
  offset : Nat
  deriving DecidableEq, Repr

inductive Statement
  | blank
  | createTable (temporary : Bool) (name column : Name)
  | createView (temporary : Bool) (name column : Name)
  | insert (table : Name) (value : Expr)
  | read (column table order : Name)
  | select (columns : List (Expr × String))
  | listTables
  /-- How long to wait for a lock, which may be given anew. -/
  | busyTimeout (millis : Option Nat)
  deriving DecidableEq, Repr

/-- The statement that lists the tables and views of both namespaces. -/
def listTablesSql : String :=
  "SELECT name AS tablename FROM sqlite_master " ++
    "WHERE type IN ('table','view') AND name NOT LIKE 'sqlite_%' " ++
    "UNION ALL SELECT name AS tablename FROM sqlite_temp_master " ++
    "WHERE type IN ('table','view') ORDER BY 1"

/-- `show tables`, in any ASCII letter case. -/
def isShowTables (cs : List Char) : Bool := cs.map Char.toLower = "show tables".toList

/-- The text without the characters at its end for which `p` holds. -/
def dropEnd (p : Char → Bool) (cs : List Char) : List Char := (cs.reverse.dropWhile p).reverse

/-- The text without white space around it, semicolons at its end, and white space before those. -/
def trimCommand (cs : List Char) : List Char :=
  dropEnd Unicode.isWhiteSpace
    (dropEnd (· = ';') (dropEnd Unicode.isWhiteSpace (cs.dropWhile Unicode.isWhiteSpace)))

/-- Expands the shorthand `show tables`; any other text stays as it is. -/
def expand (sql : String) : String :=
  if isShowTables (trimCommand sql.toList) then listTablesSql else sql

/-- Reads from tokens of a text; `last` is the number of the highest slot so far. -/
structure ReadState where
  sql : String
  rest : List Token
  last : Nat := 0

inductive ReadFault
  | incomplete
  | located (fault : TextFault) (offset : Nat)

abbrev Reading := StateT ReadState (Except ReadFault)

namespace Reading

/-- The token at the front cannot stand there. -/
def refuse (α : Type) : Reading α := do
  match (← get).rest with
  | [] => throw .incomplete
  | t :: _ =>
    let written := String.ofList t.written
    if t.kind = .illegal then throw (.located (.unrecognized written) t.offset)
    throw (.located (.syntaxNear written) t.offset)

def advance : Reading Unit := modify fun s => { s with rest := s.rest.tail }

def isWord (word : String) (t : Token) : Bool :=
  t.kind = .word && (String.ofList t.written).toLower = word

def tryWord (word : String) : Reading Bool := do
  match (← get).rest with
  | t :: _ => if isWord word t then do advance; return true else return false
  | [] => return false

def word (w : String) : Reading Unit := do
  if !(← tryWord w) then refuse Unit

def isSymbolToken (c : Char) (t : Token) : Bool := t.kind = .symbol && t.written = [c]

def trySymbol (c : Char) : Reading Bool := do
  match (← get).rest with
  | t :: _ => if isSymbolToken c t then do advance; return true else return false
  | [] => return false

def symbol (c : Char) : Reading Unit := do
  if !(← trySymbol c) then refuse Unit

def keywords : List String :=
  ["as", "create", "from", "insert", "into", "order", "select", "table", "unique", "values", "where"]

def name : Reading Name := do
  match (← get).rest with
  | ⟨.quotedName n, w, o⟩ :: _ => do advance; return ⟨String.ofList n, String.ofList w, o⟩
  | ⟨.word, w, o⟩ :: _ =>
    if (String.ofList w).toLower ∈ keywords then refuse Name
    else do advance; return ⟨String.ofList w, String.ofList w, o⟩
  | _ => refuse Name

def operand : Reading Operand := do
  let s ← get
  match s.rest with
  | ⟨.slot number, _, _⟩ :: r =>
    let n := number.getD (s.last + 1)
    set { s with rest := r, last := max s.last n }
    return .slot n
  | ⟨.string value, _, _⟩ :: _ => do advance; return .string value
  | ⟨.number value, _, _⟩ :: _ => do advance; return .number value
  | _ => refuse Operand

/-- One operand or more, with commas between them, up to a closing parenthesis. -/
def operands : Nat → Reading (List Operand)
  | 0 => refuse (List Operand)
  | fuel + 1 => do
    let x ← operand
    if ← trySymbol ',' then return x :: (← operands fuel)
    symbol ')'
    return [x]

def maxArguments : Nat := 127

def expr : Reading Expr := do
  match (← get).rest with
  | ⟨.word, w, o⟩ :: ⟨.symbol, ['('], _⟩ :: r => do
    modify fun s => { s with rest := r }
    let args ← (do if ← trySymbol ')' then return [] else operands (r.length + 1))
    let written := String.ofList w
    if maxArguments < args.length then throw (.located (.tooManyArguments written) o)
    match Builtin.ofName? written with
    | none => throw (.located (.noSuchFunction written) o)
    | some f =>
      if f.takes args.length then return .call f args
      else throw (.located (.argumentCount written) o)
  | _ => return .operand (← operand)

/-- How many characters the first bytes of a text hold. -/
def charsWithin : Nat → List Char → Nat
  | _, [] => 0
  | bytes, c :: r => if bytes < c.utf8Size then 0 else charsWithin (bytes - c.utf8Size) r + 1

/-- The text from the first to the last of some tokens. -/
def writtenText (sql : String) (ts : List Token) : String :=
  match ts.head?, ts.getLast? with
  | some first, some last =>
    let cs := sql.toList
    let start := charsWithin first.offset cs
    String.ofList ((cs.drop start).take (charsWithin last.stop cs - start))
  | _, _ => ""

/-- A result column. Without a name of its own it is named by its text. -/
def column : Reading (Expr × String) := do
  let before ← get
  let e ← expr
  let after ← get
  if ← tryWord "as" then
    let n ← name
    return (e, n.value)
  return (e, writtenText before.sql (before.rest.take (before.rest.length - after.rest.length)))

/-- Result columns with commas between them. -/
def columns : Nat → Reading (List (Expr × String))
  | 0 => refuse (List (Expr × String))
  | fuel + 1 => do
    let c ← column
    if ← trySymbol ',' then return c :: (← columns fuel)
    return [c]

def create : Reading Statement := do
  let temporary ← (do if ← tryWord "temp" then return true else tryWord "temporary")
  if ← tryWord "table" then
    let n ← name
    symbol '('
    let c ← name
    word "unique"
    symbol ')'
    return .createTable temporary n c
  word "view"
  let n ← name
  word "as"
  word "select"
  let _ ← operand
  word "as"
  let c ← name
  return .createView temporary n c

def insert : Reading Statement := do
  word "into"
  let n ← name
  word "values"
  symbol '('
  let e ← expr
  symbol ')'
  return .insert n e

def select : Reading Statement := do
  match (← get).rest with
  | _ :: t :: _ =>
    if isWord "from" t then
      let c ← name
      word "from"
      let n ← name
      word "order"
      word "by"
      return .read c n (← name)
    else return .select (← columns ((← get).rest.length + 1))
  | r => return .select (← columns (r.length + 1))

def maxMillis : Nat := 0x7FFFFFFF

/-- A time to wait. A negative one is none, nor is one beyond the limit. -/
def millis : Reading Nat := do
  let negative ← trySymbol '-'
  if !negative then
    let _ ← trySymbol '+'
  match (← get).rest with
  | ⟨.number n, _, _⟩ :: _ => do advance; return if negative ∨ maxMillis < n then 0 else n
  | _ => refuse Nat

def pragma : Reading Statement := do
  word "busy_timeout"
  if ← trySymbol '=' then return .busyTimeout (some (← millis))
  if ← trySymbol '(' then
    let n ← millis
    symbol ')'
    return .busyTimeout (some n)
  return .busyTimeout none

def statement : Reading Statement := do
  let s ←
    if ← tryWord "create" then create
    else if ← tryWord "insert" then insert
    else if ← tryWord "select" then select
    else if ← tryWord "pragma" then pragma
    else refuse Statement
  if (← get).rest.isEmpty then return s
  symbol ';'
  return s

end Reading

/-- A statement that has been read, and the number of its slots. -/
structure Prepared where
  statement : Statement
  slots : Nat
  sql : String
  deriving DecidableEq, Repr

/-- The first statement of the text. Semicolons before it are passed over, and what follows it is not
looked at. -/
def read (sql : String) : Except Fault Prepared :=
  if sql = listTablesSql then .ok ⟨.listTables, 0, sql⟩
  else
    match (tokens sql).dropWhile (Reading.isSymbolToken ';') with
    | [] => .ok ⟨.blank, 0, sql⟩
    | ts =>
      match Reading.statement.run ⟨sql, ts, 0⟩ with
      | .ok (s, state) => .ok ⟨s, state.last, sql⟩
      | .error .incomplete => .error .incomplete
      | .error (.located fault offset) => .error (.text fault sql offset)

end ArrayBridge.Sql
