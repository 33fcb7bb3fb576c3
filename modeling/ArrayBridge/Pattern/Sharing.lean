import Std.Data.HashMap
import ArrayBridge.Utf8.ByteRange

/-!
The states of an automaton that reads one character of a set, byte by byte. States that go on in the same way are
shared as long as a table of fixed size remembers them: it has one place for each hash, and the newer state
takes it.
-/
namespace ArrayBridge.Pattern

open Utf8 (ByteRange)

/-- What an automaton takes: its states, and the bytes of the lists that they keep. -/
structure Extent where
  states : Nat := 0
  listBytes : Nat := 0
  deriving DecidableEq, Repr

/-- The bytes of a transition in the list of a state. -/
def transitionBytes : Nat := 8

/-- A hash of numbers of 64 bits. -/
def fnvHash (words : List UInt64) : UInt64 :=
  words.foldl (fun h w => (h ^^^ w) * 1099511628211) 14695981039346656037

/-- States by their hashes, and how much has been built. A new state has the number of states before it. -/
structure Sharing (State : Type) where
  extent : Extent
  table : Std.HashMap Nat (State × Nat) := ∅

/-- Builds a state, which the table remembers from now on. -/
def Sharing.build {State : Type} (s : Sharing State) (slot listBytes : Nat) (state : State) :
    Nat × Sharing State :=
  let id := s.extent.states
  (id, ⟨⟨id + 1, s.extent.listBytes + listBytes⟩, s.table.insert slot (state, id)⟩)

/-- The number of a state, which is built if the table does not remember it. -/
def Sharing.intern {State : Type} [DecidableEq State] (s : Sharing State) (slot listBytes : Nat)
    (state : State) : Nat × Sharing State :=
  match s.table[slot]? with
  | some (known, n) => if known = state then (n, s) else s.build slot listBytes state
  | none => s.build slot listBytes state

/-! ### Reading forwards: states with lists of transitions -/

structure Transition where
  range : ByteRange
  target : Nat
  deriving DecidableEq, Repr

def Transition.words (t : Transition) : List UInt64 :=
  [t.range.low.toUInt64, t.range.high.toUInt64, t.target.toUInt64]

def internNode (s : Sharing (List Transition)) (ts : List Transition) : Nat × Sharing (List Transition) :=
  s.intern ((fnvHash (ts.flatMap Transition.words)).toNat % 10000) (transitionBytes * ts.length) ts

/-- The state that reads one of the sequences, which are in order, and goes on at `exit`. Those that begin with
the same range have a state behind it in common. None is longer than `depth`. -/
def shareForward (exit : Nat) :
    Nat → List (List ByteRange) → Sharing (List Transition) → Nat × Sharing (List Transition)
  | 0, _, s => (exit, s)
  | depth + 1, seqs, s =>
    let groups := seqs.splitBy fun a b => a.head? = b.head?
    let r := groups.foldl (fun (r : List Transition × Sharing (List Transition)) g =>
      match g with
      | [[b]] => (⟨b, exit⟩ :: r.1, r.2)
      | (b :: _) :: _ =>
        let next := shareForward exit depth (g.map List.tail) r.2
        (⟨b, next.1⟩ :: r.1, next.2)
      | _ => r) ([], s)
    internNode r.2 r.1.reverse

/-- The sequences of a set, read forwards, behind `e`. -/
def Extent.addForward (e : Extent) (seqs : List (List ByteRange)) : Extent :=
  (shareForward e.states 4 seqs { extent := { e with states := e.states + 1 } }).2.extent

/-! ### Reading backwards: states with one transition -/

/-- The state that reads a byte in the range and goes on at `target`. -/
def internRange (s : Sharing Transition) (t : Transition) : Nat × Sharing Transition :=
  s.intern ((fnvHash [t.target.toUInt64, t.range.low.toUInt64, t.range.high.toUInt64]).toNat % 1000) 0 t

/-- The state that reads a sequence from its end. -/
def shareBackward (exit : Nat) (seq : List ByteRange) (s : Sharing Transition) : Nat × Sharing Transition :=
  seq.foldl (fun r b => internRange r.2 ⟨b, r.1⟩) (exit, s)

/-- The sequences of a set, read backwards, behind `e`: a state that chooses between them, and one that all
of them lead to. -/
def Extent.addBackward (e : Extent) (branchBytes : Nat) (seqs : List (List ByteRange)) : Extent :=
  let start : Sharing Transition := { extent := ⟨e.states + 2, e.listBytes + branchBytes * seqs.length⟩ }
  (seqs.foldl (fun s seq => (shareBackward (e.states + 1) seq s).2) start).extent

end ArrayBridge.Pattern
