import ArrayBridge.Pattern.Syntax

/-!
Patterns in normal form. Each constructor function builds its kind of form from parts that are normal, so that
groups without an index are gone, characters in a row are one literal, no concatenation stands directly in
another, and what all branches begin with stands once in front of them.
-/
namespace ArrayBridge.Pattern

inductive Form
  | empty
  /-- One character at least. -/
  | literal (text : List Char)
  /-- Disjoint ranges in ascending order; without any, nothing matches. -/
  | set (ranges : CharSet)
  | look (kind : Look)
  | repetition (form : Form) (min : Nat) (max : Option Nat) (greedy : Bool)
  | capture (index : Nat) (form : Form)
  | concat (forms : List Form)
  | alternate (forms : List Form)
  deriving Repr

namespace Form

mutual

/-- How many characters a match has at least; none where nothing can match. -/
def minLength : Form → Option Nat
  | .empty | .look _ => some 0
  | .literal text => some text.length
  | .set ranges => if ranges.isEmpty then none else some 1
  | .repetition form min _ _ => (minLength form).map (· * min)
  | .capture _ form => minLength form
  | .concat forms => minLengthAll forms
  | .alternate forms => minLengthAny forms

def minLengthAll : List Form → Option Nat
  | [] => some 0
  | f :: r => do return (← minLength f) + (← minLengthAll r)

def minLengthAny : List Form → Option Nat
  | [] => none
  | [f] => minLength f
  | f :: r => do return min (← minLength f) (← minLengthAny r)

end

mutual

/-- How many characters a match has at most; none where there is no limit or no match. -/
def maxLength : Form → Option Nat
  | .empty | .look _ => some 0
  | .literal text => some text.length
  | .set ranges => if ranges.isEmpty then none else some 1
  | .repetition form _ max _ => do return (← maxLength form) * (← max)
  | .capture _ form => maxLength form
  | .concat forms => maxLengthAll forms
  | .alternate forms => maxLengthAny forms

def maxLengthAll : List Form → Option Nat
  | [] => some 0
  | f :: r => do return (← maxLength f) + (← maxLengthAll r)

def maxLengthAny : List Form → Option Nat
  | [] => none
  | [f] => maxLength f
  | f :: r => do return max (← maxLength f) (← maxLengthAny r)

end

/-- Does a match have a character at least? -/
def consumes (f : Form) : Bool := f.minLength.any (0 < ·)

/-- Is nothing but the empty text matched? -/
def onlyEmpty (f : Form) : Bool := f.maxLength = some 0

mutual

/-- Are the two forms the same? -/
def same : Form → Form → Bool
  | .empty, .empty => true
  | .literal s, .literal t => s = t
  | .set s, .set t => s = t
  | .look j, .look k => j = k
  | .repetition f m n g, .repetition f' m' n' g' => m = m' && n = n' && g = g' && same f f'
  | .capture i f, .capture j f' => i = j && same f f'
  | .concat fs, .concat gs | .alternate fs, .alternate gs => sameAll fs gs
  | _, _ => false

def sameAll : List Form → List Form → Bool
  | [], [] => true
  | f :: fs, g :: gs => same f g && sameAll fs gs
  | _, _ => false

end

/-- A set; of one character it is a literal. -/
def ofSet (s : CharSet) : Form :=
  match s.normal with
  | [(a, b)] => if a = b then .literal [Char.ofNat a] else .set [(a, b)]
  | ranges => .set ranges

/-- The parts of a form that stands in a concatenation. -/
def parts : Form → List Form
  | .empty => []
  | .concat forms => forms
  | f => [f]

/-- Puts a part in front of others; two literals become one. -/
def attach (f : Form) (rest : List Form) : List Form :=
  match f, rest with
  | .literal s, .literal t :: r => .literal (s ++ t) :: r
  | _, _ => f :: rest

def sequence (forms : List Form) : Form :=
  match (forms.flatMap parts).foldr attach [] with
  | [] => .empty
  | [f] => f
  | fs => .concat fs

/-- A repetition of something that matches the empty text alone is done once at most. -/
def repeated (f : Form) (min : Nat) (max : Option Nat) (greedy : Bool) : Form :=
  let (min, max) := if f.onlyEmpty then (Nat.min min 1, some (Nat.min (max.getD 1) 1)) else (min, max)
  if max = some 0 then .empty
  else if min = 1 ∧ max = some 1 then f
  else .repetition f min max greedy

def branches : Form → List Form
  | .alternate forms => forms
  | f => [f]

/-- The set of a literal of one character. -/
def singleton? : Form → Option CharSet
  | .literal [c] => some (.single c)
  | _ => none

def set? : Form → Option CharSet
  | .set s => some s
  | _ => none

/-- The branches as one set, if all are single characters or all are sets. -/
def commonSet? (forms : List Form) : Option CharSet :=
  ((forms.mapM singleton?).or (forms.mapM set?)).map List.flatten

/-- Branches, without a look at what they begin with. -/
def choice (forms : List Form) : Form :=
  match forms.flatMap branches with
  | [] => .set []
  | [f] => f
  | fs =>
    match commonSet? fs with
    | some s => ofSet s
    | none => .alternate fs

def concatParts? : Form → Option (List Form)
  | .concat forms => some forms
  | _ => none

/-- How many parts the two have in common at their fronts. -/
def commonLength : List Form → List Form → Nat
  | f :: fs, g :: gs => if same f g then commonLength fs gs + 1 else 0
  | _, _ => 0

/-- Branches, with what all of them begin with in front. -/
def alternation (forms : List Form) : Form :=
  match choice forms with
  | .alternate fs =>
    match fs.mapM concatParts? with
    | some (ps :: qss) =>
      let n := qss.foldl (fun n qs => Nat.min n (commonLength ps qs)) ps.length
      if n = 0 then .alternate fs
      else sequence (ps.take n ++ [choice ((ps :: qss).map fun qs => sequence (qs.drop n))])
    | _ => .alternate fs
  | f => f

end Form

mutual

def Node.form : Node → Form
  | .empty => .empty
  | .chars s _ => .ofSet s
  | .look kind => .look kind
  | .repetition node min max greedy => (form node).repeated min max greedy
  | .capture i node => .capture i (form node)
  | .group node => form node
  | .concat nodes => .sequence (forms nodes)
  | .alternate nodes => .alternation (forms nodes)

def Node.forms : List Node → List Form
  | [] => []
  | n :: r => form n :: forms r

end

end ArrayBridge.Pattern
