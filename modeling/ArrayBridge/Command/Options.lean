import ArrayBridge.Config.File
import ArrayBridge.Decimal.Numeral
import ArrayBridge.Error

/-!
The options of the command line, and the configuration that they give.
-/
namespace ArrayBridge

structure Options where
  configFile : Option String := none
  typedBlobs : Bool := false
  nullAsNan : Bool := false
  noConvertUtf8 : Bool := false
  noUniqueFields : Bool := false
  busyTimeout : Option Nat := none
  json : Bool := false
  deriving DecidableEq, Repr

namespace Options

/-- Sets an option without a value; each may be given once. -/
def switch? (o : Options) (name : String) : Option Options :=
  match name with
  | "typed-blobs" => if o.typedBlobs then none else some { o with typedBlobs := true }
  | "null-as-nan" => if o.nullAsNan then none else some { o with nullAsNan := true }
  | "no-convert-utf8" => if o.noConvertUtf8 then none else some { o with noConvertUtf8 := true }
  | "no-unique-fields" => if o.noUniqueFields then none else some { o with noUniqueFields := true }
  | "json" => if o.json then none else some { o with json := true }
  | _ => none

def isSwitch (name : String) : Bool :=
  name ∈ ["typed-blobs", "null-as-nan", "no-convert-utf8", "no-unique-fields", "json"]

def takesValue (name : String) : Bool := name = "config" || name = "busy-timeout"

/-- Sets an option with a value; each may be given once. -/
def assign? (o : Options) (name value : String) : Option Options :=
  match name with
  | "config" => if o.configFile.isSome ∨ value = "" then none else some { o with configFile := some value }
  | "busy-timeout" =>
    if o.busyTimeout.isSome then none else (Decimal.natural? value.toList).map fun n => { o with busyTimeout := some n }
  | _ => none

/-- The settings of the file, overridden by the options. -/
def apply (o : Options) (c : Config) : Config :=
  { c with
    typedBlobs := c.typedBlobs || o.typedBlobs
    nullAsNan := c.nullAsNan || o.nullAsNan
    convertUtf8 := c.convertUtf8 && !o.noConvertUtf8
    checkUniqueFields := c.checkUniqueFields && !o.noUniqueFields
    busyTimeout := o.busyTimeout.getD c.busyTimeout }

/-- The configuration to open the session with. `fileText` gives the text of a file, or why it cannot be
read. -/
def config (o : Options) (fileText : String → Except String String) : Except BridgeError Config := do
  match o.configFile with
  | none => return o.apply {}
  | some path => do
    let text ← (fileText path).mapError .file
    let c ← (Config.parse text).mapError .config
    return o.apply c

end Options

end ArrayBridge
