import ArrayBridge.Command.Options

/-!
The words of a command line, read one at a time. Options may stand anywhere before the first argument of a
statement; from there on, and behind a double hyphen, every word stands for itself.
-/
namespace ArrayBridge

inductive Verb
  | query
  | tables
  | version
  deriving DecidableEq, Repr

namespace Verb

def ofName? : String → Option Verb
  | "query" => some .query
  | "tables" => some .tables
  | "version" => some .version
  | _ => none

def needs : Verb → Nat
  | .query => 2
  | .tables => 1
  | .version => 0

def takesArguments (v : Verb) : Bool := v = .query

def takesOptions (v : Verb) : Bool := v ≠ .version

end Verb

/-- Why reading ends before the last word. -/
inductive Stop
  | misuse
  | help
  deriving DecidableEq, Repr

/-- What has been read: options, the words besides them, the last one first, an option that waits for its
value, and whether all that follows stands for itself. -/
structure Words where
  options : Options := {}
  plain : List String := []
  waiting : Option String := none
  literal : Bool := false
  deriving DecidableEq, Repr

namespace Words

def orMisuse {α : Type} : Option α → Except Stop α
  | none => .error .misuse
  | some x => .ok x

/-- A word that is no option. -/
def take (s : Words) (v : Verb) (w : String) : Except Stop Words :=
  match s.waiting with
  | some name => do return { s with options := ← orMisuse (s.options.assign? name w), waiting := none }
  | none =>
    if s.plain.length < v.needs ∨ v.takesArguments then .ok { s with plain := w :: s.plain }
    else .error .misuse

/-- Is the next word the first argument of a statement, if it is no option that is known? -/
def atArguments (s : Words) (v : Verb) : Bool := v.takesArguments && s.plain.length = v.needs

/-- A word with the look of an option that is unknown. -/
def takeUnknown (s : Words) (v : Verb) (w : String) : Except Stop Words :=
  if s.atArguments v then s.take v w else .error .misuse

/-- An option by its name, with the value that is written to it. -/
def takeOption (s : Words) (v : Verb) (w name : String) (value : Option String) : Except Stop Words :=
  if name = "help" then .error (if value.isSome ∨ s.waiting.isSome then .misuse else .help)
  else if v.takesOptions && (Options.isSwitch name || Options.takesValue name) then
    if s.waiting.isSome then .error .misuse
    else
      match value with
      | some x => do return { s with options := ← orMisuse (s.options.assign? name x) }
      | none =>
        if Options.takesValue name then .ok { s with waiting := some name }
        else do return { s with options := ← orMisuse (s.options.switch? name) }
  else s.takeUnknown v w

/-- Letters behind a single hyphen. The only one known asks for help. -/
def takeLetters (s : Words) (v : Verb) (w : String) (letters : List Char) : Except Stop Words :=
  if letters.all (· = 'h') ∨ (letters.head? = some 'h' ∧ !s.atArguments v) then
    .error (if s.waiting.isSome then .misuse else .help)
  else s.takeUnknown v w

def step (v : Verb) (s : Words) (w : String) : Except Stop Words :=
  if s.literal ∨ (v.takesArguments ∧ v.needs < s.plain.length) then s.take v w
  else
    match w.toList with
    | ['-', '-'] => if s.waiting.isSome then .error .misuse else .ok { s with literal := true }
    | '-' :: '-' :: r =>
      let name := String.ofList (r.takeWhile (· ≠ '='))
      match r.dropWhile (· ≠ '=') with
      | [] => s.takeOption v w name none
      | _ :: value => s.takeOption v w name (some (String.ofList value))
    | '-' :: c :: r => s.takeLetters v w (c :: r)
    | _ => s.take v w

def ofList (v : Verb) (words : List String) : Except Stop Words := do
  let s ← words.foldlM (step v) {}
  if s.waiting.isSome ∨ s.plain.length < v.needs then throw .misuse
  return { s with plain := s.plain.reverse }

end Words

end ArrayBridge
