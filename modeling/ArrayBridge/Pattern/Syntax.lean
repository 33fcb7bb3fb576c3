import ArrayBridge.Unicode.CharSet

/-!
Patterns after reading: letter case, line ends and dots are already settled by the flags that were in
force where they stand.
-/
namespace ArrayBridge.Pattern

/-- What the characters before and behind a place have to be: parts of words or not. -/
inductive WordEdge
  | boundary
  | noBoundary
  | start
  | stop
  | startHalf
  | stopHalf
  deriving DecidableEq, Repr

/-- A condition on the place between two characters. -/
inductive Look
  | textStart
  | textEnd
  | lineStart
  | lineEnd
  | anyLineStart
  | anyLineEnd
  /-- Words are made of `letters`. -/
  | word (edge : WordEdge) (letters : CharSet)
  deriving DecidableEq, Repr

/-- A pattern as it is written. A set knows how deep its brackets nest: one without brackets, not at all. -/
inductive Node
  | empty
  | chars (set : CharSet) (brackets : Nat)
  | look (kind : Look)
  | repetition (node : Node) (min : Nat) (max : Option Nat) (greedy : Bool)
  | capture (index : Nat) (node : Node)
  | group (node : Node)
  | concat (nodes : List Node)
  | alternate (nodes : List Node)
  deriving Repr

namespace Node

mutual

/-- How deep the pattern is nested. -/
def depth : Node → Nat
  | .empty | .look _ => 0
  | .chars _ brackets => brackets
  | .repetition node _ _ _ | .capture _ node | .group node => depth node + 1
  | .concat nodes | .alternate nodes => maxDepth nodes + 1

def maxDepth : List Node → Nat
  | [] => 0
  | n :: r => max (depth n) (maxDepth r)

end

end Node

end ArrayBridge.Pattern
