import ArrayBridge.Pattern.Reader

/-!
Patterns from their text. The parser keeps the groups that are open and moves on by at least one
character a step.
-/
namespace ArrayBridge.Pattern

/-- A pattern that has been read: its root, how many groups capture, and the names of those that have
one. Group zero is the whole match and not counted. -/
structure Parsed where
  root : Node
  captures : Nat
  names : List (String × Nat)
  deriving Repr

/-- The surroundings of an open group: what to return to at its end. Its index is there if it captures. -/
structure Frame where
  index : Option Nat
  flags : Flags
  branches : List Node
  items : List Node

/-- Branches and items of the innermost open group, the last one first. An empty item stands where flags
were set. -/
structure Progress where
  flags : Flags := {}
  branches : List Node := []
  items : List Node := []
  outer : List Frame := []
  captures : Nat := 0
  names : List (String × Nat) := []

abbrev Step := Except SyntaxFault (Progress × List Char)

namespace Progress

def add (p : Progress) (n : Node) : Progress := { p with items := n :: p.items }

/-- The items so far as one node. -/
def branch (p : Progress) : Node :=
  match p.items with
  | [] => .empty
  | [n] => n
  | ns => .concat ns.reverse

def body (p : Progress) : Node :=
  match p.branches with
  | [] => p.branch
  | bs => .alternate (p.branch :: bs).reverse

def enter (p : Progress) (index : Option Nat) (flags : Flags) : Progress :=
  { p with
    flags := flags
    branches := []
    items := []
    outer := ⟨index, p.flags, p.branches, p.items⟩ :: p.outer }

def leave (p : Progress) : Except SyntaxFault Progress :=
  match p.outer with
  | [] => .error .unopenedGroup
  | g :: gs =>
    let node :=
      match g.index with
      | some i => Node.capture i p.body
      | none => .group p.body
    .ok { p with flags := g.flags, branches := g.branches, items := node :: g.items, outer := gs }

def enterCapture (p : Progress) : Progress :=
  { p.enter (some (p.captures + 1)) p.flags with captures := p.captures + 1 }

def isNameChar (first : Bool) (c : Char) : Bool :=
  c = '_' || (if first then Unicode.isAlphabetic c else c ∈ ['.', '[', ']'] || Unicode.isAlphanumeric c)

/-- A group with a name, behind its opening angle bracket. -/
def enterNamed (p : Progress) (cs : List Char) : Step := do
  let name := cs.takeWhile (· ≠ '>')
  match name, cs.dropWhile (· ≠ '>') with
  | c :: r, _ :: rest =>
    if !isNameChar true c || !r.all (isNameChar false) then throw .badGroupName
    let s := String.ofList name
    if p.names.any (·.1 = s) then throw .duplicateGroupName
    return ({ p.enterCapture with names := p.names ++ [(s, p.captures + 1)] }, rest)
  | _, _ => throw .badGroupName

/-- What follows an opening parenthesis and a question mark, where it is neither a name nor a look
around: flags for the rest of this group, or a group with flags. -/
def flagGroup (p : Progress) (cs : List Char) : Step := do
  let ((seen, flags), rest) ← flagLetters [] true p.flags cs
  match rest with
  | ':' :: r => return (p.enter none flags, r)
  | _ =>
    if seen = [] then throw .missingOperand
    return ({ p with flags := flags, items := .empty :: p.items }, rest.tail)

def openGroup (p : Progress) (cs : List Char) : Step :=
  match p.flags.skip cs with
  | '?' :: '=' :: _ | '?' :: '!' :: _ | '?' :: '<' :: '=' :: _ | '?' :: '<' :: '!' :: _ => .error .lookAround
  | '?' :: 'P' :: '<' :: r | '?' :: '<' :: r => p.enterNamed r
  | '?' :: r => p.flagGroup r
  | r => .ok (p.enterCapture, r)

/-- Repeats the last item. A question mark behind the count takes as few as can be, unless the flags
swap the two. -/
def repeatLast (p : Progress) (c : Count) (cs : List Char) : Step :=
  match p.items with
  | [] | .empty :: _ => .error .missingOperand
  | n :: ns =>
    let lazy := cs.head? = some '?'
    let greedy := lazy = p.flags.swapGreed
    .ok ({ p with items := .repetition n c.1 c.2 greedy :: ns }, if lazy then cs.tail else cs)

def dotSet (f : Flags) : Except SyntaxFault CharSet :=
  if f.dotAll then f.complement []
  else if f.anyLineEnd then f.complement [(10, 10), (13, 13)]
  else f.complement [(10, 10)]

def lineLook (f : Flags) (text line any : Look) : Look :=
  if f.multiLine then if f.anyLineEnd then any else line else text

def addPrimitive (p : Progress) : Primitive → Progress
  | .literal c => p.add (.chars (p.flags.fold (.single c)) 0)
  | .set s => p.add (.chars s 0)
  | .look kind => p.add (.look kind)

def step (p : Progress) (c : Char) (r : List Char) : Step := do
  match c with
  | '(' => p.openGroup r
  | ')' => return (← p.leave, r)
  | '|' => return ({ p with branches := p.branch :: p.branches, items := [] }, r)
  | '[' =>
    let (k, rest) ← bracketClass p.flags r
    return (p.add (.chars k.set k.depth), rest)
  | '?' => p.repeatLast (0, some 1) r
  | '*' => p.repeatLast (0, none) r
  | '+' => p.repeatLast (1, none) r
  | '{' =>
    if p.items = [] then throw .missingOperand
    let (n, rest) ← count p.flags r
    p.repeatLast n rest
  | '.' => return (p.add (.chars (← dotSet p.flags) 0), r)
  | '^' => return (p.add (.look (lineLook p.flags .textStart .lineStart .anyLineStart)), r)
  | '$' => return (p.add (.look (lineLook p.flags .textEnd .lineEnd .anyLineEnd)), r)
  | '\\' =>
    let (a, rest) ← escape p.flags r
    return (p.addPrimitive a, rest)
  | _ => return (p.addPrimitive (.literal c), r)

def run : Nat → Progress → List Char → Except SyntaxFault Progress
  | 0, p, _ => .ok p
  | fuel + 1, p, cs =>
    match p.flags.skip cs with
    | [] => .ok p
    | c :: r =>
      match p.step c r with
      | .ok (q, rest) => run fuel q rest
      | .error e => .error e

end Progress

def maxNesting : Nat := 250

def parse (cs : List Char) : Except SyntaxFault Parsed := do
  let p ← Progress.run (cs.length + 1) {} cs
  if p.outer.length > 0 then throw .unclosedGroup
  if p.body.depth > maxNesting then throw .tooDeep
  return ⟨p.body, p.captures, p.names⟩

end ArrayBridge.Pattern
