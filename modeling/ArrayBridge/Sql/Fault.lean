import ArrayBridge.Error

/-!
What the engine refuses. A fault in the text of a statement is reported with the text and the place, all
others by their result code.
-/
namespace ArrayBridge.Sql

inductive TextFault
  | syntaxNear (written : String)
  | unrecognized (written : String)
  | tableExists (written : String)
  | viewExists (written : String)
  | noSuchColumn (name : String)
  | noSuchFunction (name : String)
  | argumentCount (name : String)
  | tooManyArguments (name : String)
  deriving DecidableEq, Repr

def TextFault.text : TextFault → String
  | .syntaxNear w => "near \"" ++ w ++ "\": syntax error"
  | .unrecognized w => "unrecognized token: \"" ++ w ++ "\""
  | .tableExists w => "table " ++ w ++ " already exists"
  | .viewExists w => "view " ++ w ++ " already exists"
  | .noSuchColumn name => "no such column: " ++ name
  | .noSuchFunction name => "no such function: " ++ name
  | .argumentCount name => "wrong number of arguments to function " ++ name ++ "()"
  | .tooManyArguments name => "too many arguments on function " ++ name

inductive Fault
  | text (fault : TextFault) (sql : String) (offset : Nat)
  | incomplete
  | tooManyColumns
  | noSuchTable (name : String)
  | modifiedView (name : String)
  | reservedName (name : String)
  | notUnique (table column : String)
  | misuse
  | badPattern
  /-- A pattern whose size passes the limit, given in bytes. -/
  | largePattern (limit : Nat)
  deriving DecidableEq, Repr

def Fault.toEngineError : Fault → EngineError
  | .text fault sql offset => ⟨-1, fault.text ++ " in " ++ sql ++ " at offset " ++ toString offset⟩
  | .incomplete => ⟨1, "incomplete input"⟩
  | .tooManyColumns => ⟨1, "too many columns in result set"⟩
  | .noSuchTable name => ⟨1, "no such table: " ++ name⟩
  | .modifiedView name => ⟨1, "cannot modify " ++ name ++ " because it is a view"⟩
  | .reservedName name => ⟨1, "object name reserved for internal use: " ++ name⟩
  | .notUnique table column => ⟨2067, "UNIQUE constraint failed: " ++ table ++ "." ++ column⟩
  | .misuse => ⟨21, "not an error"⟩
  | .badPattern => ⟨1, "regex parse error"⟩
  | .largePattern limit => ⟨1, "Compiled regex exceeds size limit of " ++ toString limit ++ " bytes."⟩

end ArrayBridge.Sql
