import ArrayBridge.Utf8

/-!
Files by their paths. A path is walked name by name from a directory, and the walk ends at the first name that
cannot be followed.
-/
namespace ArrayBridge

inductive FileFault
  | missing
  | notDirectory
  | isDirectory
  | nameTooLong
  | notText
  deriving DecidableEq, Repr

/-- What is said of it: where the system refuses, with its number for the fault. -/
def FileFault.text : FileFault → String
  | .missing => "No such file or directory (os error 2)"
  | .notDirectory => "Not a directory (os error 20)"
  | .isDirectory => "Is a directory (os error 21)"
  | .nameTooLong => "File name too long (os error 36)"
  | .notText => "stream did not contain valid UTF-8"

inductive FileTree
  | file (content : Bytes)
  | directory (entries : List (String × FileTree))

namespace FileTree

def maxName : Nat := 255

def maxPath : Nat := 4095

/-- Follows names from the last of some directories, each of which is in the one before; `outer` are those
around it, the innermost first. -/
def walk (outer : List FileTree) (here : FileTree) : List String → Except FileFault FileTree
  | [] => .ok here
  | name :: names =>
    match here with
    | .file _ => .error .notDirectory
    | .directory entries =>
      if name = "" ∨ name = "." then walk outer here names
      else if name = ".." then
        match outer with
        | [] => walk [] here names
        | d :: ds => walk ds d names
      else if maxName < name.utf8ByteSize then .error .nameTooLong
      else
        match entries.lookup name with
        | none => .error .missing
        | some next => walk (here :: outer) next names

/-- The directories from the root to the one that the names lead to, the innermost first. -/
def trail (here : FileTree) : List String → List FileTree
  | [] => [here]
  | name :: names =>
    match here with
    | .file _ => [here]
    | .directory entries =>
      match entries.lookup name with
      | none => [here]
      | some next => trail next names ++ [here]

/-- The text of the file at a path. One that does not begin at the root begins at the working directory. -/
def read (root : FileTree) (working : List String) (path : String) : Except FileFault String := do
  if path = "" then throw .missing
  if maxPath < path.utf8ByteSize then throw .nameTooLong
  let found ←
    if path.startsWith "/" then walk [] root (path.splitOn "/")
    else
      match trail root working with
      | here :: outer => walk outer here (path.splitOn "/")
      | [] => throw .missing
  match found with
  | .directory _ => throw .isDirectory
  | .file content =>
    match Utf8.decode? content with
    | some cs => return String.ofList cs
    | none => throw .notText

end FileTree

end ArrayBridge
