/-!
Sets of characters as ranges of code points, both ends included.
-/
namespace ArrayBridge

abbrev CharSet := List (Nat × Nat)

namespace CharSet

def maxCodePoint : Nat := 0x10FFFF

/-- Does the code point lie in one of the ranges? -/
def holds (s : CharSet) (n : Nat) : Bool := s.any fun r => r.1 ≤ n && n ≤ r.2

def contains (s : CharSet) (c : Char) : Bool := s.holds c.toNat

def single (c : Char) : CharSet := [(c.toNat, c.toNat)]

def range (a b : Char) : CharSet := [(a.toNat, b.toNat)]

def all : CharSet := [(0, maxCodePoint)]

/-- Joins ranges that touch or overlap, the first of which is `current`. They come in the order of their
lower ends. -/
def joinFrom (current : Nat × Nat) : CharSet → CharSet
  | [] => [current]
  | r :: rest =>
    if r.1 ≤ current.2 + 1 then joinFrom (current.1, max current.2 r.2) rest
    else current :: joinFrom r rest

/-- The same set as disjoint ranges in ascending order. -/
def normal (s : CharSet) : CharSet :=
  match s.mergeSort fun a b => a.1 ≤ b.1 with
  | [] => []
  | r :: rest => joinFrom r rest

def union (s t : CharSet) : CharSet := normal (s ++ t)

/-- What lies between the ranges of a normal set, from `low` on. -/
def gaps (low : Nat) : CharSet → CharSet
  | [] => if low ≤ maxCodePoint then [(low, maxCodePoint)] else []
  | r :: rest => if low < r.1 then (low, r.1 - 1) :: gaps (r.2 + 1) rest else gaps (r.2 + 1) rest

def complement (s : CharSet) : CharSet := gaps 0 s.normal

def inter (s t : CharSet) : CharSet := (s.complement.union t.complement).complement

def diff (s t : CharSet) : CharSet := s.inter t.complement

def symmDiff (s t : CharSet) : CharSet := (s.union t).diff (s.inter t)

end CharSet

end ArrayBridge
