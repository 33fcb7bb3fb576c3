import ArrayBridge.Command.Words

/-!
What is printed for help: a line on the command, how it is used, its words, and its options.
-/
namespace ArrayBridge.Help

/-- Lines of two columns, the second of which begins two characters behind the longest entry of the first. -/
def columns (rows : List (String × String)) : List String :=
  let width := rows.foldl (fun n r => max n r.1.length) 0
  rows.map fun r => "  " ++ r.1 ++ String.ofList (List.replicate (width - r.1.length) ' ') ++ "  " ++ r.2

def options : List (String × String) :=
  [("    --config <CONFIG>", "TOML file with bridge settings"),
    ("    --typed-blobs", "Store and read arrays as typed BLOBs"),
    ("    --null-as-nan", "Render NULL as NaN instead of []"),
    ("    --no-convert-utf8", "Pass text through without UTF-8 conversion"),
    ("    --no-unique-fields", "Keep duplicate column names as they are"),
    ("    --busy-timeout <BUSY_TIMEOUT>", "Busy timeout in milliseconds"),
    ("    --json", "Print records as JSON")]

def about : Verb → String
  | .query => "Run one SQL statement and print its result"
  | .tables => "List tables and views"
  | .version => "Print version information"

def usage : Verb → String
  | .query => "sqlmat query [OPTIONS] <DATABASE> <SQL> [ARGS]..."
  | .tables => "sqlmat tables [OPTIONS] <DATABASE>"
  | .version => "sqlmat version"

def words : Verb → List (String × String)
  | .query =>
    [("<DATABASE>", "Database file (created if missing)"), ("<SQL>", "SQL statement, `?` marks a parameter slot"),
      ("[ARGS]...", "Parameter values, one per slot")]
  | .tables => [("<DATABASE>", "")]
  | .version => []

def text (v : Verb) : String :=
  let part (title : String) (rows : List (String × String)) : List String :=
    if rows.isEmpty then [] else "" :: title :: columns rows
  let lines :=
    [about v, "", "Usage: " ++ usage v] ++ part "Arguments:" (words v) ++
      part "Options:" ((if v.takesOptions then options else []) ++ [("-h, --help", "Print help")])
  "\n".intercalate lines ++ "\n"

end ArrayBridge.Help
