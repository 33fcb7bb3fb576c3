import ArrayBridge.Decimal.Numeral
import ArrayBridge.Pattern.Syntax
import ArrayBridge.Unicode.Folding
import ArrayBridge.Unicode.Property

/-!
The parts of a written pattern below the level of groups: escapes, counts, flags, and classes in brackets.
Each reader takes the characters that are left and gives back those it leaves.
-/
namespace ArrayBridge.Pattern

inductive SyntaxFault
  | missingOperand
  | unclosedGroup
  | unopenedGroup
  | unclosedClass
  | badRange
  | badClassItem
  | badCount
  | badEscape
  | badFlags
  | badGroupName
  | duplicateGroupName
  | lookAround
  | tooDeep
  /-- Bytes that are no character would match. -/
  | splitCharacter
  deriving DecidableEq, Repr

structure Flags where
  ignoreCase : Bool := false
  multiLine : Bool := false
  dotAll : Bool := false
  swapGreed : Bool := false
  anyLineEnd : Bool := false
  /-- Blanks and comments in the pattern mean nothing. -/
  freeSpacing : Bool := false
  /-- Classes, words and letter case are those of ASCII. What is left out of a class then is single bytes,
  and no class or escape may match one that belongs to a longer character. -/
  ascii : Bool := false
  deriving DecidableEq, Repr

abbrev Read (α : Type) := Except SyntaxFault (α × List Char)

/-- What follows blanks and comments. -/
def dropBlanks (inComment : Bool) : List Char → List Char
  | [] => []
  | c :: r =>
    if inComment then dropBlanks (c ≠ '\n') r
    else if c = '#' then dropBlanks true r
    else if Unicode.isWhiteSpace c then dropBlanks false r
    else c :: r

def Flags.skip (f : Flags) (cs : List Char) : List Char :=
  if f.freeSpacing then dropBlanks false cs else cs

def Flags.fold (f : Flags) (s : CharSet) : CharSet :=
  if f.ignoreCase then if f.ascii then s.foldAscii else s.foldCase else s

/-- What is left out of a class. -/
def Flags.complement (f : Flags) (s : CharSet) : Except SyntaxFault CharSet :=
  if f.ascii then .error .splitCharacter else .ok s.complement

def Flags.wordLetters (f : Flags) : CharSet := if f.ascii then Unicode.asciiWord else Unicode.word

/-- What a single element of a pattern can be. -/
inductive Primitive
  | literal (c : Char)
  | set (s : CharSet)
  | look (kind : Look)
  deriving Repr

def hexValue? (c : Char) : Option Nat :=
  if c.isDigit then some (c.toNat - 48)
  else if 'a' ≤ c ∧ c ≤ 'f' then some (c.toNat - 87)
  else if 'A' ≤ c ∧ c ≤ 'F' then some (c.toNat - 55)
  else none

def charOf (n : Nat) : Except SyntaxFault Char :=
  if n.isValidChar then .ok (Char.ofNat n) else .error .badEscape

/-- A character by its hexadecimal number. Two digits alone name a byte where characters are those of
ASCII. -/
def hexChar (f : Flags) (byte : Bool) (n : Nat) : Except SyntaxFault Char :=
  if f.ascii && byte && 128 ≤ n then .error .splitCharacter else charOf n

/-- Exactly `n` hexadecimal digits. -/
def hexFixed (f : Flags) : Nat → Nat → List Char → Read Nat
  | 0, value, cs => .ok (value, cs)
  | _ + 1, _, [] => .error .badEscape
  | n + 1, value, c :: r =>
    match hexValue? c with
    | some d => hexFixed f n (16 * value + d) (f.skip r)
    | none => .error .badEscape

/-- Hexadecimal digits up to a closing brace; `fuel` is the number of characters left. -/
def hexBraced (f : Flags) : Nat → Option Nat → List Char → Read Nat
  | 0, _, _ | _, _, [] => .error .badEscape
  | fuel + 1, value, c :: r =>
    if c = '}' then
      match value with
      | some n => .ok (n, f.skip r)
      | none => .error .badEscape
    else
      match hexValue? c with
      | some d => hexBraced f fuel (some (16 * value.getD 0 + d)) (f.skip r)
      | none => .error .badEscape

def hexEscape (f : Flags) (digits : Nat) (cs : List Char) : Except SyntaxFault (Primitive × List Char) := do
  match f.skip cs with
  | '{' :: r =>
    let (n, rest) ← hexBraced f (r.length + 1) none (f.skip r)
    return (.literal (← hexChar f false n), rest)
  | r =>
    let (n, rest) ← hexFixed f digits 0 r
    return (.literal (← hexChar f (digits = 2) n), rest)

/-- Characters with a meaning of their own outside or inside brackets. -/
def isMeta (c : Char) : Bool := c ∈ "\\.+*?()|[]\x7b\x7d^$#&-~".toList

/-- ASCII characters that stand for themselves behind a backslash. -/
def isEscapable (c : Char) : Bool := c.toNat < 128 && !c.isAlphanum && c ≠ '<' && c ≠ '>'

def boundaryNames : List (List Char × WordEdge) :=
  [("start".toList, .start), ("end".toList, .stop), ("start-half".toList, .startHalf),
    ("end-half".toList, .stopHalf)]

def isBoundaryChar (c : Char) : Bool := c.isAlpha || c = '-'

/-- The characters at the front for which `p` holds, with what may be skipped behind each of them. -/
def Flags.spaced (f : Flags) (p : Char → Bool) : Nat → List Char → List Char × List Char
  | 0, cs => ([], cs)
  | _, [] => ([], [])
  | fuel + 1, c :: r =>
    if p c then
      let q := f.spaced p fuel (f.skip r)
      (c :: q.1, q.2)
    else ([], c :: r)

def Flags.takeSpaced (f : Flags) (p : Char → Bool) (cs : List Char) : List Char × List Char :=
  f.spaced p cs.length cs

/-- A word boundary, with what may stand behind it in braces. Braces that do not begin with a letter are
a count and are left. -/
def wordBoundary (f : Flags) (cs : List Char) : Except SyntaxFault (WordEdge × List Char) :=
  match cs with
  | '{' :: r =>
    match f.skip r with
    | [] => .error .badEscape
    | c :: t =>
      if isBoundaryChar c then
        let (name, rest) := f.takeSpaced isBoundaryChar (c :: t)
        match boundaryNames.lookup name, rest with
        | some edge, '}' :: u => .ok (edge, u)
        | _, _ => .error .badEscape
      else .ok (.boundary, cs)
  | _ => .ok (.boundary, cs)

def classEscapes (f : Flags) : List (Char × CharSet) :=
  if f.ascii then [('d', Unicode.asciiDigit), ('s', Unicode.asciiSpace), ('w', Unicode.asciiWord)]
  else [('d', Unicode.decimalDigit), ('s', Unicode.whiteSpace), ('w', Unicode.word)]

def controlEscapes : List (Char × Char) :=
  [('a', '\x07'), ('f', '\x0c'), ('t', '\t'), ('n', '\n'), ('r', '\r'), ('v', '\x0b')]

def lookEscapes (f : Flags) : List (Char × Look) :=
  [('A', .textStart), ('z', .textEnd), ('B', .word .noBoundary f.wordLetters), ('<', .word .start f.wordLetters),
    ('>', .word .stop f.wordLetters)]

/-- What stands behind a backslash. -/
def escape (f : Flags) : List Char → Read Primitive
  | [] => .error .badEscape
  | c :: r =>
    if c = 'x' then hexEscape f 2 r
    else if c = 'u' then hexEscape f 4 r
    else if c = 'U' then hexEscape f 8 r
    else if c = 'b' then (wordBoundary f r).map fun p => (.look (.word p.1 f.wordLetters), p.2)
    else if isMeta c || isEscapable c then .ok (.literal c, r)
    else
      match (classEscapes f).lookup c, (classEscapes f).lookup c.toLower, controlEscapes.lookup c,
        (lookEscapes f).lookup c with
      | some s, _, _, _ => .ok (.set s, r)
      | none, some s, _, _ => (f.complement s).map fun t => (.set t, r)
      | none, none, some d, _ => .ok (.literal d, r)
      | none, none, none, some kind => .ok (.look kind, r)
      | none, none, none, none => .error .badEscape

/-- Decimal digits and what follows; blanks around them mean nothing here. -/
def countDigits (f : Flags) (cs : List Char) : List Char × List Char :=
  let (ds, r) := f.takeSpaced Char.isDigit ((f.skip cs).dropWhile Unicode.isWhiteSpace)
  (ds, r.dropWhile Unicode.isWhiteSpace)

def countValue (ds : List Char) : Except SyntaxFault Nat :=
  let n := Decimal.digitsValue ds
  if ds = [] ∨ 0xFFFFFFFF < n then .error .badCount else .ok n

/-- How often something is repeated: at least, and at most if there is a limit. -/
abbrev Count := Nat × Option Nat

/-- A count, behind its opening brace. -/
def count (f : Flags) (cs : List Char) : Except SyntaxFault (Count × List Char) := do
  let (first, r) := countDigits f cs
  let (range, r) ←
    match r with
    | ',' :: t =>
      match f.skip t with
      | '}' :: _ => pure ((← countValue first, none), f.skip t)
      | t => do
        let min ← countValue first
        let (second, u) := countDigits f t
        pure ((min, some (← countValue second)), u)
    | _ => do
      let n ← countValue first
      pure ((n, some n), r)
  match r with
  | '}' :: t => if range.2.all (range.1 ≤ ·) then return (range, f.skip t) else throw .badCount
  | _ => throw .badCount

/-- Flags up to the colon or parenthesis that ends them, which is left. Flags behind a minus are taken
back; each may be named once. -/
def flagLetters (seen : List Char) (on : Bool) (f : Flags) : List Char → Read (List Char × Flags)
  | [] => .error .badFlags
  | c :: r =>
    if c = ':' ∨ c = ')' then
      if seen.head? = some '-' then .error .badFlags else .ok ((seen, f), c :: r)
    else if c ∈ seen then .error .badFlags
    else
      match c with
      | '-' => flagLetters (c :: seen) false f r
      | 'i' => flagLetters (c :: seen) on { f with ignoreCase := on } r
      | 'm' => flagLetters (c :: seen) on { f with multiLine := on } r
      | 's' => flagLetters (c :: seen) on { f with dotAll := on } r
      | 'U' => flagLetters (c :: seen) on { f with swapGreed := on } r
      | 'R' => flagLetters (c :: seen) on { f with anyLineEnd := on } r
      | 'x' => flagLetters (c :: seen) on { f with freeSpacing := on } r
      | 'u' => flagLetters (c :: seen) on { f with ascii := !on } r
      | _ => .error .badFlags

/-! ### Classes -/

/-- The ASCII classes that have names. -/
def asciiClasses : List (String × CharSet) :=
  [("alnum", [(48, 57), (65, 90), (97, 122)]), ("alpha", [(65, 90), (97, 122)]), ("ascii", [(0, 127)]),
    ("blank", [(9, 9), (32, 32)]), ("cntrl", [(0, 31), (127, 127)]), ("digit", [(48, 57)]),
    ("graph", [(33, 126)]), ("lower", [(97, 122)]), ("print", [(32, 126)]),
    ("punct", [(33, 47), (58, 64), (91, 96), (123, 126)]), ("space", [(9, 13), (32, 32)]),
    ("upper", [(65, 90)]), ("word", [(48, 57), (65, 90), (95, 95), (97, 122)]),
    ("xdigit", [(48, 57), (65, 70), (97, 102)])]

/-- A named class such as `:alpha:]`, behind its opening bracket, with whether it is negated. -/
def namedClass? : List Char → Option ((Bool × CharSet) × List Char)
  | ':' :: r =>
    let negated := r.head? = some '^'
    let r := if negated then r.tail else r
    match asciiClasses.lookup (String.ofList (r.takeWhile (· ≠ ':'))), r.dropWhile (· ≠ ':') with
    | some s, ':' :: ']' :: rest => some ((negated, s), rest)
    | _, _ => none
  | _ => none

/-- The set of a class that may be negated. Letter case is folded first. -/
def Flags.closeClass (f : Flags) (negated : Bool) (s : CharSet) : Except SyntaxFault CharSet :=
  if negated then f.complement (f.fold s) else .ok (f.fold s)

inductive SetOp
  | inter
  | diff
  | symmDiff
  deriving DecidableEq, Repr

def SetOp.apply : SetOp → CharSet → CharSet → CharSet
  | .inter, a, b => a.inter b
  | .diff, a, b => a.diff b
  | .symmDiff, a, b => a.symmDiff b

/-- A set read from a class, and how deep what stands for it is nested. -/
structure ClassPart where
  set : CharSet
  depth : Nat := 0
  deriving DecidableEq, Repr

/-- A class begun: an operation whose left side is known, and the items read since, the last one first. -/
structure OpenClass where
  negated : Bool
  left : Option (SetOp × ClassPart) := none
  items : List ClassPart := []

def OpenClass.add (k : OpenClass) (p : ClassPart) : OpenClass := { k with items := p :: k.items }

/-- The items as one; two or more are nested in their union. -/
def OpenClass.union (k : OpenClass) : ClassPart :=
  match k.items with
  | [] => ⟨[], 0⟩
  | [p] => { p with set := p.set.normal }
  | ps => ⟨CharSet.normal (ps.flatMap ClassPart.set), ps.foldl (fun n p => max n p.depth) 0 + 1⟩

/-- Operations are done from the left, all with the same strength. -/
def OpenClass.value (k : OpenClass) (f : Flags) : ClassPart :=
  let b := k.union
  match k.left with
  | none => b
  | some (op, a) => ⟨op.apply (f.fold a.set) (f.fold b.set), max a.depth b.depth + 1⟩

def OpenClass.operator (k : OpenClass) (f : Flags) (op : SetOp) : OpenClass :=
  { k with left := some (op, k.value f), items := [] }

/-- A class that ends here. -/
def OpenClass.close (k : OpenClass) (f : Flags) : Except SyntaxFault ClassPart := do
  let p := k.value f
  return ⟨← f.closeClass k.negated p.set, p.depth + 1⟩

/-- Dashes at the front of a class are literal, and so is a bracket that is its first character. -/
def classDashes (f : Flags) : Nat → OpenClass → List Char → OpenClass × List Char
  | 0, k, cs => (k, cs)
  | fuel + 1, k, cs =>
    match f.skip cs with
    | '-' :: r => classDashes f fuel (k.add ⟨.single '-', 0⟩) r
    | r => (k, r)

/-- A class behind its opening bracket, up to its first item; `fuel` is no less than its dashes. -/
def openClass (f : Flags) (fuel : Nat) (cs : List Char) : OpenClass × List Char :=
  let r := f.skip cs
  let negated := r.head? = some '^'
  let (k, r) := classDashes f fuel ⟨negated, none, []⟩ (if negated then r.tail else r)
  match r with
  | ']' :: t => if k.items = [] then (k.add ⟨.single ']', 0⟩, t) else (k, r)
  | _ => (k, r)

/-- One element of a class. -/
def classPrimitive (f : Flags) : List Char → Read Primitive
  | [] => .error .unclosedClass
  | '\\' :: r => escape f r
  | c :: r => .ok (.literal c, r)

/-- A character of a class. -/
def Flags.classChar (f : Flags) (c : Char) : Except SyntaxFault Char :=
  if f.ascii && 128 ≤ c.toNat then .error .splitCharacter else .ok c

def Primitive.toSet (f : Flags) : Primitive → Except SyntaxFault CharSet
  | .literal c => (f.classChar c).map CharSet.single
  | .set s => .ok s
  | .look _ => .error .badClassItem

def Primitive.toChar (f : Flags) : Primitive → Except SyntaxFault Char
  | .literal c => f.classChar c
  | _ => .error .badClassItem

/-- The character behind the dash that decides whether there is a range. A comment before it is passed
over no further than to its first character that is not blank. -/
def afterDash? (f : Flags) (cs : List Char) : Option Char :=
  if f.freeSpacing then
    match cs.dropWhile Unicode.isWhiteSpace with
    | '#' :: r => (r.dropWhile Unicode.isWhiteSpace).head?
    | r => r.head?
  else cs.head?

/-- An element of a class or a range of characters. A dash before a closing bracket or another dash makes
no range. -/
def classItem (f : Flags) (cs : List Char) : Except SyntaxFault (CharSet × List Char) := do
  let (a, r) ← classPrimitive f cs
  match f.skip r with
  | '-' :: t =>
    if afterDash? f t = some ']' ∨ afterDash? f t = some '-' then return (← a.toSet f, f.skip r)
    match f.skip t with
    | [] => throw .unclosedClass
    | u => do
      let (b, rest) ← classPrimitive f u
      let low ← a.toChar f
      let high ← b.toChar f
      if high < low then throw .badRange
      return (.range low high, rest)
  | r => return (← a.toSet f, r)

/-- The rest of the innermost class `k` and of those around it. Every round takes a character. -/
def classRest (f : Flags) : Nat → List OpenClass → OpenClass → List Char → Except SyntaxFault (ClassPart × List Char)
  | 0, _, _, _ => throw .unclosedClass
  | fuel + 1, outer, k, cs => do
    match f.skip cs with
    | [] => throw .unclosedClass
    | '[' :: r =>
      match namedClass? r with
      | some ((negated, s), rest) => classRest f fuel outer (k.add ⟨← f.closeClass negated s, 0⟩) rest
      | none =>
        let (inner, rest) := openClass f fuel r
        classRest f fuel (k :: outer) inner rest
    | ']' :: r =>
      let p ← k.close f
      match outer with
      | [] => return (p, r)
      | o :: os => classRest f fuel os (o.add p) r
    | '&' :: '&' :: r => classRest f fuel outer (k.operator f .inter) r
    | '-' :: '-' :: r => classRest f fuel outer (k.operator f .diff) r
    | '~' :: '~' :: r => classRest f fuel outer (k.operator f .symmDiff) r
    | c :: r =>
      let (s, rest) ← classItem f (c :: r)
      classRest f fuel outer (k.add ⟨s, 0⟩) rest

/-- A class, behind its opening bracket. -/
def bracketClass (f : Flags) (cs : List Char) : Read ClassPart :=
  let fuel := cs.length + 1
  let (k, rest) := openClass f fuel cs
  classRest f fuel [] k rest

end ArrayBridge.Pattern
