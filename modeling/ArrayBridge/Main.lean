import ArrayBridge.Command
import ArrayBridge.FileTree

/-!
The program: reads the settings file that the command line names, runs the command on a store in memory, and
prints what it leaves.
-/
open ArrayBridge

/-- Why a file could not be read, as the system says it. -/
def fileErrorText : IO.Error → String
  | .noFileOrDirectory .. => FileFault.missing.text
  | .inappropriateType _ 20 _ => FileFault.notDirectory.text
  | .inappropriateType _ 21 _ => FileFault.isDirectory.text
  | .invalidArgument _ 36 _ => FileFault.nameTooLong.text
  | e => toString e

def readSettings : Option String → IO (Except String String)
  | none => return .ok ""
  | some path =>
    try
      return .ok (← IO.FS.readFile path)
    catch e => return .error (fileErrorText e)

def main (args : List String) : IO UInt32 := do
  match Command.parse args with
  | none => return Command.usage.code.toUInt32
  | some command =>
    let text ← readSettings command.configFile?
    let outcome := command.run fun _ => text
    IO.print outcome.output
    match outcome.error with
    | some e => IO.eprintln ("error [" ++ e.identifier ++ "]: " ++ e.message)
    | none => pure ()
    return outcome.code.toUInt32
