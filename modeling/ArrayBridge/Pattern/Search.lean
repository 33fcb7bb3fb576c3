import Std.Data.HashSet
import ArrayBridge.Pattern.Program

/-!
Finding the leftmost match, earlier branches preferred. A place of the program that failed at a position
of the text once fails there always, so no pair of the two is tried twice.
-/
namespace ArrayBridge.Pattern

abbrev Subject := Array Char

/-- Is there a letter of a word before, and after, the place? -/
def wordSides (letters : CharSet) (t : Subject) (i : Nat) : Bool × Bool :=
  (i ≠ 0 && (t[i - 1]?).any letters.contains, (t[i]?).any letters.contains)

def WordEdge.holds (before after : Bool) : WordEdge → Bool
  | .boundary => before ≠ after
  | .noBoundary => before = after
  | .start => !before && after
  | .stop => before && !after
  | .startHalf => !before
  | .stopHalf => !after

def Look.holds (t : Subject) (i : Nat) : Look → Bool
  | .textStart => i = 0
  | .textEnd => i = t.size
  | .lineStart => i = 0 || t[i - 1]? = some '\n'
  | .lineEnd => i = t.size || t[i]? = some '\n'
  | .anyLineStart =>
    i = 0 || t[i - 1]? = some '\n' || (t[i - 1]? = some '\r' && t[i]? ≠ some '\n')
  | .anyLineEnd =>
    i = t.size || t[i]? = some '\r' || (t[i]? = some '\n' && (i = 0 || t[i - 1]? ≠ some '\r'))
  | .word edge letters =>
    let sides := wordSides letters t i
    edge.holds sides.1 sides.2

/-- A place in the program and in the text, with the positions saved on the way, the last one first. -/
structure Thread where
  place : Nat
  pos : Nat
  saved : List (Nat × Nat)

/-- The threads that follow one, in the order in which they are tried. -/
def Thread.next (code : Code) (t : Subject) (th : Thread) : List Thread :=
  match code[th.place]? with
  | some (.char s n) => if (t[th.pos]?).any s.contains then [⟨n, th.pos + 1, th.saved⟩] else []
  | some (.look kind n) => if kind.holds t th.pos then [⟨n, th.pos, th.saved⟩] else []
  | some (.save slot n) => [⟨n, th.pos, (slot, th.pos) :: th.saved⟩]
  | some (.split ns) => ns.map fun n => ⟨n, th.pos, th.saved⟩
  | some .accept | none => []

def isAccept (code : Code) (place : Nat) : Bool :=
  match code[place]? with
  | some .accept => true
  | _ => false

/-- Pairs of a place in the program and one in the text, by a number for each. -/
abbrev Tried := Std.HashSet Nat

/-- The first thread that accepts, and which pairs have been tried. -/
def explore (code : Code) (t : Subject) : Nat → List Thread → Tried → Option Thread × Tried
  | 0, _, tried | _, [], tried => (none, tried)
  | fuel + 1, th :: rest, tried =>
    let key := th.place * (t.size + 1) + th.pos
    if tried.contains key then explore code t fuel rest tried
    else if isAccept code th.place then (some th, tried)
    else explore code t fuel (th.next code t ++ rest) (tried.insert key)

/-- How many threads one instruction can start. -/
def Instr.width : Instr → Nat
  | .split ns => ns.length
  | _ => 1

/-- Enough rounds for every thread that can ever be started, plus the first ones. -/
def Program.rounds (p : Program) (t : Subject) : Nat :=
  (p.code.foldl (fun n i => n + i.width) 1) * (t.size + 1) + 1

/-- A match: from `start` up to before `stop`, with the positions of its groups. -/
structure Match where
  start : Nat
  stop : Nat
  saved : List (Nat × Nat)
  deriving Repr

/-- Where a group matched last; group zero is the whole match. -/
def Match.group? (m : Match) (i : Nat) : Option (Nat × Nat) :=
  if i = 0 then some (m.start, m.stop)
  else
    match m.saved.lookup (2 * i), m.saved.lookup (2 * i + 1) with
    | some a, some b => some (a, b)
    | _, _ => none

/-- The first of the next `n + 1` positions at which a match begins. -/
def findAt (p : Program) (t : Subject) (rounds : Nat) : Nat → Nat → Tried → Option Match
  | n, i, tried =>
    match explore p.code t rounds [⟨p.start, i, []⟩] tried with
    | (some th, _) => some ⟨i, th.pos, th.saved⟩
    | (none, tried) =>
      match n with
      | 0 => none
      | n + 1 => findAt p t rounds n (i + 1) tried

/-- The leftmost match that begins at position `i` or later. -/
def findFrom (p : Program) (t : Subject) (i : Nat) : Option Match :=
  if i ≤ t.size then findAt p t (p.rounds t) (t.size - i) i ∅ else none

/-- The matches from `i` on. An empty one directly behind the last one is passed over. -/
def matchesFrom (p : Program) (t : Subject) : Nat → Nat → Option Nat → List Match
  | 0, _, _ => []
  | fuel + 1, i, last =>
    match findFrom p t i with
    | none => []
    | some m =>
      if m.start = m.stop ∧ some m.stop = last then
        match findFrom p t (i + 1) with
        | none => []
        | some m => m :: matchesFrom p t fuel m.stop (some m.stop)
      else m :: matchesFrom p t fuel m.stop (some m.stop)

/-- All matches that do not overlap. No two end at the same position. -/
def allMatches (p : Program) (t : Subject) : List Match := matchesFrom p t (t.size + 2) 0 none

end ArrayBridge.Pattern
