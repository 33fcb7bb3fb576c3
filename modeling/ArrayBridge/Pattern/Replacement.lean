import ArrayBridge.Pattern.Parser
import ArrayBridge.Pattern.Search
import ArrayBridge.Pattern.Size

/-!
Compiled patterns: the first match, and all matches replaced by a template.
-/
namespace ArrayBridge.Pattern

structure Compiled where
  source : Parsed
  program : Program

/-- Why a text is no usable pattern. -/
inductive Fault
  | unreadable (fault : SyntaxFault)
  | tooLarge
  deriving DecidableEq, Repr

def compile (cs : List Char) : Except Fault Compiled := do
  let p ← (parse cs).mapError .unreadable
  let form := p.root.form
  if !form.fits then throw .tooLarge
  return ⟨p, .ofForm form⟩

/-- The characters from `a` up to before `b`. -/
def slice (cs : List Char) (a b : Nat) : List Char := (cs.drop a).take (b - a)

namespace Compiled

/-- The text of the first match. -/
def find? (c : Compiled) (text : List Char) : Option (List Char) :=
  (findFrom c.program text.toArray 0).map fun m => slice text m.start m.stop

def isMatch (c : Compiled) (text : List Char) : Bool := (c.find? text).isSome

end Compiled

/-- A template in pieces. -/
inductive Piece
  | literal (c : Char)
  | group (index : Nat)
  | named (name : String)
  deriving DecidableEq, Repr

def isRefChar (c : Char) : Bool := c.isAlphanum || c = '_'

def reference (cs : List Char) : Piece :=
  match Decimal.natural? cs with
  | some n => .group n
  | none => .named (String.ofList cs)

/-- A piece behind a dollar sign and what follows it, if a reference stands there. Without braces the
name is as long as can be. -/
def reference? : List Char → Option (Piece × List Char)
  | '{' :: r =>
    match r.dropWhile (· ≠ '}') with
    | [] => none
    | _ :: rest => some (reference (r.takeWhile (· ≠ '}')), rest)
  | cs =>
    let name := cs.takeWhile isRefChar
    if name = [] then none else some (reference name, cs.dropWhile isRefChar)

/-- The pieces of a template: a doubled dollar sign is one, and one that begins no reference stays. -/
def pieces : Nat → List Char → List Piece
  | 0, _ | _, [] => []
  | fuel + 1, c :: r =>
    if c ≠ '$' then .literal c :: pieces fuel r
    else
      match r with
      | '$' :: t => .literal '$' :: pieces fuel t
      | _ =>
        match reference? r with
        | some (p, rest) => p :: pieces fuel rest
        | none => .literal '$' :: pieces fuel r

def template (cs : List Char) : List Piece := pieces cs.length cs

namespace Compiled

/-- What a piece stands for in a match; a group that took no part is empty. -/
def expandPiece (c : Compiled) (text : List Char) (m : Match) : Piece → List Char
  | .literal d => [d]
  | .group i => groupText i
  | .named s =>
    match c.source.names.lookup s with
    | some i => groupText i
    | none => []
where
  groupText (i : Nat) : List Char :=
    match m.group? i with
    | some (a, b) => slice text a b
    | none => []

/-- The text from `i` on with its matches replaced. -/
def substitute (c : Compiled) (text : List Char) (ps : List Piece) (i : Nat) : List Match → List Char
  | [] => text.drop i
  | m :: ms => slice text i m.start ++ ps.flatMap (c.expandPiece text m) ++ c.substitute text ps m.stop ms

def replaceAll (c : Compiled) (text replacement : List Char) : List Char :=
  c.substitute text (template replacement) 0 (allMatches c.program text.toArray)

end Compiled

end ArrayBridge.Pattern
