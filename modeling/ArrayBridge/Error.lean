import ArrayBridge.Config

/-!
The errors that end a call, with their texts and the identifiers by which the host knows them, and the
warnings that do not end it.
-/
namespace ArrayBridge

inductive ArgumentFault
  | unfilled (length : Nat) (dims : List Nat) (type : ElementType)
  | unevenRecord (position values fields : Nat)
  | unevenRow (values columns : Nat)
  | unbindable (className : String)
  | unreadableScalar (type : ElementType)
  | blobLength (expected actual : Nat)
  | statementEncoding
  | stated (text : String)
  deriving DecidableEq, Repr

def ArgumentFault.text : ArgumentFault → String
  | .unfilled length dims type => s!"{length} bytes do not fill a {dimsText dims} {type.name} array"
  | .unevenRecord position values fields => s!"record {position} has {values} values for {fields} fields"
  | .unevenRow values columns => s!"row has {values} values for {columns} columns"
  | .unbindable className => s!"a value of class {className} cannot be bound"
  | .unreadableScalar type => s!"unreadable {type.name} scalar"
  | .blobLength expected actual => (BlobError.lengthMismatch expected actual).message
  | .statementEncoding => "SQL statement is not valid UTF-8"
  | .stated text => text

/-- A failure the engine reports: its result code and text. -/
structure EngineError where
  code : Int
  message : String
  deriving DecidableEq, Repr

namespace EngineError

def codeNames : List (Nat × String) :=
  [(0, "OK"), (1, "ERROR"), (2, "INTERNAL"), (3, "PERM"), (4, "ABORT"), (5, "BUSY"), (6, "LOCKED"),
    (7, "NOMEM"), (8, "READONLY"), (9, "INTERRUPT"), (10, "IOERR"), (11, "CORRUPT"), (12, "NOTFOUND"),
    (13, "FULL"), (14, "CANTOPEN"), (15, "PROTOCOL"), (16, "EMPTY"), (17, "SCHEMA"), (18, "TOOBIG"),
    (19, "CONSTRAINT"), (20, "MISMATCH"), (21, "MISUSE"), (22, "NOLFS"), (23, "AUTH"), (24, "FORMAT"),
    (25, "RANGE"), (26, "NOTADB"), (100, "ROW"), (101, "DONE")]

/-- The name of the primary code, which is the low byte of the code; the code itself where that has no
name or is negative. -/
def identifierOf (code : Int) : String :=
  if code < 0 then s!"SQLITE:{code}"
  else
    match codeNames.lookup (code.toNat % 256) with
    | some name => "SQLITE:" ++ name
    | none => s!"SQLITE:{code}"

end EngineError

inductive BridgeError
  | invalidArgument (fault : ArgumentFault)
  | unexpectedArguments (expected given : Nat)
  | unsupportedType (name : String)
  | sizeExceeded (size max : Nat)
  | badMagic
  | unsupportedVersion (found : Int)
  | sizeMismatch (expected actual : Nat)
  | unsupportedTypedBlobHeader (fault : HeaderFault)
  | memory (size : Nat)
  | engine (error : EngineError)
  | config (fault : ConfigFault)
  | file (text : String)
  deriving DecidableEq, Repr

namespace BridgeError

def kind : BridgeError → String
  | .invalidArgument _ => "InvalidArgument"
  | .unexpectedArguments .. => "UnexpectedArguments"
  | .unsupportedType _ => "UnsupportedType"
  | .sizeExceeded .. => "SizeExceeded"
  | .badMagic => "BadMagic"
  | .unsupportedVersion _ => "UnsupportedVersion"
  | .sizeMismatch .. => "SizeMismatch"
  | .unsupportedTypedBlobHeader _ => "UnsupportedTypedBlobHeader"
  | .memory _ => "MemoryError"
  | .engine _ => "EngineError"
  | .config _ => "Config"
  | .file _ => "Io"

def message : BridgeError → String
  | .invalidArgument fault => "no or wrong argument: " ++ fault.text
  | .unexpectedArguments expected given =>
    s!"unexpected arguments passed: statement takes {expected}, got {given}"
  | .unsupportedType name => "unsupported variable type: " ++ name
  | .sizeExceeded size max => (BlobError.sizeExceeded size max).message
  | .badMagic => BlobError.badMagic.message
  | .unsupportedVersion found => s!"unsupported typed BLOB header version {found}"
  | .sizeMismatch expected actual => (BlobError.sizeMismatch expected actual).message
  | .unsupportedTypedBlobHeader fault => "unknown/unsupported typed blob header: " ++ fault.text
  | .memory size => (BlobError.outOfMemory size).message
  | .engine error => error.message
  | .config fault => "configuration error: " ++ fault.text
  | .file text => text

def identifier : BridgeError → String
  | .engine error => EngineError.identifierOf error.code
  | e => "SQLMAT:" ++ e.kind

def ofBlob : BlobError → BridgeError
  | .sizeExceeded size max => .sizeExceeded size max
  | .lengthMismatch expected actual => .invalidArgument (.blobLength expected actual)
  | .badMagic => .badMagic
  | .unsupportedVersion found _ => .unsupportedVersion found
  | .unsupportedHeader fault => .unsupportedTypedBlobHeader fault
  | .unknownElementType id => .unsupportedType s!"typed BLOB element type id {id}"
  | .sizeMismatch expected actual => .sizeMismatch expected actual
  | .outOfMemory size => .memory size

end BridgeError

inductive Warning
  | duplicateFieldName (name : String)
  | differentOrigin (platform : String) (order : ByteOrder)
  deriving DecidableEq, Repr

def Warning.text : Warning → String
  | .duplicateFieldName name => "could not build unique fieldname for " ++ name
  | .differentOrigin platform order =>
    s!"BLOB stored on different platform ({platform}, {order.text})"

/-- A computation that may end in an error and notes warnings as it goes; those noted before an error
stay noted. -/
abbrev Warned := ExceptT BridgeError (StateM (List Warning))

namespace Warned

/-- The outcome, and `warnings` with those that were added behind it. -/
def runWith (x : Warned α) (warnings : List Warning) : Except BridgeError α × List Warning :=
  x.run.run warnings

def warn (w : Warning) : Warned Unit := modify (· ++ [w])

end Warned

end ArrayBridge
