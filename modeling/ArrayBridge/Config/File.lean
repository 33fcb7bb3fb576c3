import ArrayBridge.Config
import ArrayBridge.Decimal.Digits

/-!
Configurations from a file. Each line is blank or sets one of the known names to a truth value or a whole
number; there may be a comment behind it. Tables, dotted names and all other values are of no use here and
make the file unreadable, as does a name that is set twice.
-/
namespace ArrayBridge.Config

inductive Setting
  | flag (on : Bool)
  | number (n : Nat)
  deriving DecidableEq, Repr

def isSpace (c : Char) : Bool := c = ' ' || c = '\t'

/-- Characters that may stand in comments and in names between quotes. -/
def isVisible (c : Char) : Bool := c = '\t' || (0x20 ≤ c.toNat && c.toNat ≠ 0x7F)

def isBare (c : Char) : Bool := c.isAlphanum || c = '_' || c = '-'

/-- The lines, each without its line feed and the carriage return directly before that. -/
def linesFrom (line : List Char) : List Char → List (List Char)
  | [] => [line.reverse]
  | '\n' :: r => line.reverse :: linesFrom [] r
  | '\r' :: '\n' :: r => line.reverse :: linesFrom [] r
  | c :: r => linesFrom (c :: line) r

/-- The lines behind a byte order mark, if there is one. -/
def lines (cs : List Char) : List (List Char) :=
  linesFrom [] (if cs.head? = some '\uFEFF' then cs.tail else cs)

def digit? (base : Nat) (c : Char) : Option Nat :=
  let d :=
    if c.isDigit then c.toNat - 48
    else if 'a' ≤ c ∧ c ≤ 'f' then c.toNat - 87
    else if 'A' ≤ c ∧ c ≤ 'F' then c.toNat - 55
    else 16
  if d < base then some d else none

/-- Digits to the end, with single underscores between two of them. -/
def digitsOf (base value : Nat) : List Char → Option Nat
  | [] => some value
  | '_' :: c :: r => (digit? base c).bind fun d => digitsOf base (base * value + d) r
  | c :: r => (digit? base c).bind fun d => digitsOf base (base * value + d) r

def wholeOf (base : Nat) : List Char → Option Nat
  | [] => none
  | c :: r => (digit? base c).bind fun d => digitsOf base d r

def decimalOf : List Char → Option Nat
  | ['0'] => some 0
  | '0' :: _ => none
  | cs => wholeOf 10 cs

/-- A whole number that is not negative. Only decimal ones have a sign. -/
def number? (cs : List Char) : Option Nat :=
  let n? :=
    match cs with
    | '0' :: 'x' :: r => wholeOf 16 r
    | '0' :: 'o' :: r => wholeOf 8 r
    | '0' :: 'b' :: r => wholeOf 2 r
    | '+' :: r => decimalOf r
    | '-' :: r => (decimalOf r).filter (· = 0)
    | r => decimalOf r
  n?.filter (· ≤ 0x7FFFFFFFFFFFFFFF)

def setting? (cs : List Char) : Option Setting :=
  if cs = "true".toList then some (.flag true)
  else if cs = "false".toList then some (.flag false)
  else (number? cs).map .number

/-- The character with the number that exactly `n` hexadecimal digits give. -/
def codePoint? (n : Nat) (cs : List Char) : Option (Char × List Char) :=
  let ds := cs.take n
  if ds.length = n ∧ ds.all fun d => (digit? 16 d).isSome then
    match wholeOf 16 ds with
    | some v => if v.isValidChar then some (Char.ofNat v, cs.drop n) else none
    | none => none
  else none

def escapes : List (Char × Char) :=
  [('b', '\x08'), ('t', '\t'), ('n', '\n'), ('f', '\x0c'), ('r', '\r'), ('"', '"'), ('\\', '\\')]

/-- A name between double quotes, behind the first one. Every round takes a character. -/
def quotedName? : Nat → List Char → Option (List Char × List Char)
  | 0, _ | _, [] => none
  | fuel + 1, c :: r =>
    if c = '"' then some ([], r)
    else if c = '\\' then
      match r with
      | [] => none
      | e :: t =>
        let d? :=
          if e = 'u' then codePoint? 4 t
          else if e = 'U' then codePoint? 8 t
          else (escapes.lookup e).map fun d => (d, t)
        match d? with
        | none => none
        | some (d, rest) => (quotedName? fuel rest).map fun p => (d :: p.1, p.2)
    else if isVisible c then (quotedName? fuel r).map fun p => (c :: p.1, p.2)
    else none

/-- The name at the front of a line: bare, or between quotes of either kind. -/
def name? (cs : List Char) : Option (List Char × List Char) :=
  match cs with
  | '"' :: r => quotedName? r.length r
  | '\'' :: r =>
    match r.dropWhile (· ≠ '\'') with
    | _ :: rest =>
      let name := r.takeWhile (· ≠ '\'')
      if name.all isVisible then some (name, rest) else none
    | [] => none
  | _ =>
    let name := cs.takeWhile isBare
    if name = [] then none else some (name, cs.dropWhile isBare)

/-- Nothing but a comment, if anything. -/
def endsLine (cs : List Char) : Bool :=
  match cs.dropWhile isSpace with
  | [] => true
  | c :: r => c = '#' && r.all isVisible

/-- What a line sets; a blank one sets nothing. -/
def line? (cs : List Char) : Option (Option (String × Setting)) :=
  if endsLine cs then some none
  else
    match name? (cs.dropWhile isSpace) with
    | none => none
    | some (name, r) =>
      match r.dropWhile isSpace with
      | '=' :: t =>
        let t := t.dropWhile isSpace
        let isEnd (c : Char) : Bool := isSpace c || c = '#'
        match setting? (t.takeWhile (!isEnd ·)) with
        | some s => if endsLine (t.dropWhile (!isEnd ·)) then some (some (String.ofList name, s)) else none
        | none => none
      | _ => none

/-- Sets the value of a name, if it is one of the names and takes such a value. -/
def set? (c : Config) (name : String) (s : Setting) : Option Config :=
  match name, s with
  | "convert_utf8", .flag on => some { c with convertUtf8 := on }
  | "typed_blobs", .flag on => some { c with typedBlobs := on }
  | "null_as_nan", .flag on => some { c with nullAsNan := on }
  | "check_unique_fields", .flag on => some { c with checkUniqueFields := on }
  | "busy_timeout_ms", .number n => some { c with busyTimeout := n }
  | "max_blob_size", .number n => some { c with maxBlobSize := n }
  | _, _ => none

/-- Applies the lines in order; `seen` are the names that are set already. -/
def ofLines (c : Config) (seen : List String) : List (List Char) → Option Config
  | [] => some c
  | l :: ls =>
    match line? l with
    | none => none
    | some none => ofLines c seen ls
    | some (some (name, s)) =>
      if name ∈ seen then none else (c.set? name s).bind fun d => ofLines d (name :: seen) ls

/-- The configuration that the text gives. Its limits are checked last. -/
def parse (text : String) : Except ConfigFault Config :=
  match ofLines {} [] (lines text.toList) with
  | none => .error .unreadable
  | some c =>
    match c.fault? with
    | some f => .error f
    | none => .ok c

end ArrayBridge.Config
