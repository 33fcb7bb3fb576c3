import ArrayBridge.Command.Help
import ArrayBridge.Render.Json
import ArrayBridge.Session
import ArrayBridge.Sql.Engine

/-!
The command line: one statement, or the list of tables, with settings from a file and from options.
-/
namespace ArrayBridge

inductive Command
  | query (database sql : String) (args : List String) (options : Options)
  | tables (database : String) (options : Options)
  | version
  | help (verb : Verb)
  deriving DecidableEq, Repr

namespace Command

/-- The command that the words behind its name give. A store has to have a name. -/
def ofWords (v : Verb) (s : Words) : Option Command :=
  match v, s.plain with
  | .query, database :: sql :: args => if database = "" then none else some (.query database sql args s.options)
  | .tables, [database] => if database = "" then none else some (.tables database s.options)
  | .version, [] => some .version
  | _, _ => none

/-- The command that the words give, or nothing if they make no sense. -/
def parse : List String → Option Command
  | [] => none
  | name :: words => do
    let v ← Verb.ofName? name
    match Words.ofList v words with
    | .ok s => ofWords v s
    | .error .help => return .help v
    | .error .misuse => none

/-- The value that an argument stands for: empty, a number, or text. -/
def argument (charset : Charset) (s : String) : HostValue :=
  if s = "" ∨ s = "null" then .empty
  else
    match Decimal.parse? s.toList with
    | some x => .double x
    | none =>
      match charset with
      | .identity => .text (Utf8.encode s.toList)
      | .convert => .ofText s

/-- What a run leaves: its exit code, its output, and the error that ended it. -/
structure Outcome where
  code : Nat
  output : String
  error : Option BridgeError := none
  deriving DecidableEq, Repr

def failed (e : BridgeError) : Outcome := ⟨1, "", some e⟩

def usage : Outcome := ⟨2, "", none⟩

def rendered (charset : Charset) (json : Bool) (r : QueryResult) : String :=
  if json then (Render.json charset r.output).pretty 0 ++ "\n" else Render.text charset r.output

def runQuery (sql : String) (args : List String) (o : Options) (fileText : String → Except String String) :
    Outcome :=
  let result : Except BridgeError String := do
    let config ← o.config fileText
    let session ← Session.connect Sql.engine (.opened {}) config
    let r ← (session.query Sql.engine sql (args.map (argument config.charset))).1
    return rendered config.charset o.json r
  match result with
  | .ok text => ⟨0, text, none⟩
  | .error e => failed e

def versionText : String := "sqlmat 0.1.0 (SQLite 3.45.0)\n"

def run (c : Command) (fileText : String → Except String String) : Outcome :=
  match c with
  | .query _ sql args o => runQuery sql args o fileText
  | .tables _ o => runQuery "show tables" [] o fileText
  | .version => ⟨0, versionText, none⟩
  | .help v => ⟨0, Help.text v, none⟩

def configFile? : Command → Option String
  | .query _ _ _ o | .tables _ o => o.configFile
  | .version | .help _ => none

end Command

end ArrayBridge
