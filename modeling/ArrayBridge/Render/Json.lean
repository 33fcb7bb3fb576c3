import ArrayBridge.Render.Text

/-!
Results as JSON: an array with an object a record.
-/
namespace ArrayBridge

inductive Json
  | null
  | number (x : Binary64)
  | string (s : String)
  | array (items : List Json)
  | object (members : List (String × Json))
  deriving Repr

namespace Json

/-- A finite double; there is no number for the others. -/
def ofDouble (x : Binary64) : Json := if x.code < Binary64.infinityCode then .number x else .null

/-- Adds a member at the end. One that is there already keeps its place and takes the new value. -/
def insert (name : String) (value : α) : List (String × α) → List (String × α)
  | [] => [(name, value)]
  | (n, v) :: r => if n = name then (n, value) :: r else (n, v) :: insert name value r

/-- The members in the order in which their names first occur, each with its last value. -/
def members (pairs : List (String × α)) : List (String × α) :=
  pairs.foldl (fun ms p => insert p.1 p.2 ms) []

def hexDigit (n : Nat) : Char := Nat.digitChar n

def escaped (c : Char) : List Char :=
  if c = '"' then ['\\', '"']
  else if c = '\\' then ['\\', '\\']
  else if c = '\x08' then ['\\', 'b']
  else if c = '\t' then ['\\', 't']
  else if c = '\n' then ['\\', 'n']
  else if c = '\x0c' then ['\\', 'f']
  else if c = '\r' then ['\\', 'r']
  else if c.toNat < 0x20 then ['\\', 'u', '0', '0', hexDigit (c.toNat / 16), hexDigit (c.toNat % 16)]
  else [c]

def quoted (s : String) : String := "\"" ++ String.ofList (s.toList.flatMap escaped) ++ "\""

def indent (depth : Nat) : String := "\n" ++ String.ofList (List.replicate (2 * depth) ' ')

/-- Brackets around items, each on a line of its own. -/
def block (opening closing : String) (depth : Nat) (items : List String) : String :=
  if items = [] then opening ++ closing
  else opening ++ ",".intercalate (items.map (indent (depth + 1) ++ ·)) ++ indent depth ++ closing

mutual

/-- The text with two blanks of indentation a level. -/
def pretty (depth : Nat) : Json → String
  | .null => "null"
  | .number x => Render.jsonNumber x
  | .string s => quoted s
  | .array items => block "[" "]" depth (prettyItems (depth + 1) items)
  | .object members => block "\x7b" "\x7d" depth (prettyMembers (depth + 1) members)

def prettyItems (depth : Nat) : List Json → List String
  | [] => []
  | j :: r => pretty depth j :: prettyItems depth r

def prettyMembers (depth : Nat) : List (String × Json) → List String
  | [] => []
  | (name, j) :: r => (quoted name ++ ": " ++ pretty depth j) :: prettyMembers depth r

end

end Json

namespace Render

def arrayJson (a : NumericArray) : Json :=
  let item (i : Nat) : Json := ((a.double? (.ofNat i)).map Json.ofDouble).getD .null
  if a.isScalar then item 0 else .array ((List.range a.count).map item)

def valueJson (charset : Charset) : HostValue → Json
  | .numeric a => arrayJson a
  | .text bytes => .string (hostText charset bytes)
  | v => .string v.className

def recordJson (charset : Charset) (fields : List String) (values : List HostValue) : Json :=
  .object (Json.members (fields.zip (values.map (valueJson charset))))

def json (charset : Charset) : QueryOutput → Json
  | .empty => .array []
  | .records table => .array (table.records.map (recordJson charset table.fields))

end Render

end ArrayBridge
