import ArrayBridge.Unicode.CharSet
import ArrayBridge.Utf8

/-!
Sets of characters as sequences of byte ranges. A sequence stands for the characters whose forms take one byte
out of each of its ranges, and every character of a set belongs to exactly one sequence.
-/
namespace ArrayBridge.Utf8

structure ByteRange where
  low : UInt8
  high : UInt8
  deriving DecidableEq, Repr

/-- The last code points whose forms have one, two and three bytes. -/
def lengthEnds : List Nat := [0x7F, 0x7FF, 0xFFFF]

/-- A cut at the border of a block of `n` code points, where the range begins or ends inside one. -/
def blockCut? (low high n : Nat) : Option (Nat × Nat) :=
  if low / n = high / n then none
  else if low % n ≠ 0 then some (low / n * n + n - 1, low / n * n + n)
  else if high % n ≠ n - 1 then some (high / n * n - 1, high / n * n)
  else none

/-- Where a range has to be cut before it is one sequence: the last code point of the first part and the
first of the second. What lies between the two belongs to no character. -/
def cut? (low high : Nat) : Option (Nat × Nat) :=
  if low < 0xE000 ∧ 0xD7FF < high then some (0xD7FF, 0xE000)
  else
    match lengthEnds.find? fun m => low ≤ m && m < high with
    | some m => some (m, m + 1)
    | none =>
      if high < 0x80 then none
      else ((blockCut? low high 64).or (blockCut? low high 4096)).or (blockCut? low high 262144)

/-- The forms of the two ends side by side. -/
def between (low high : Nat) : List ByteRange :=
  List.zipWith ByteRange.mk (encode [Char.ofNat low]) (encode [Char.ofNat high])

theorem blockCut?_inside {low high n a b : Nat} (hn : 0 < n) (h : low ≤ high)
    (hc : blockCut? low high n = some (a, b)) : a < high ∧ low < b := by
  unfold blockCut? at hc
  split at hc
  · simp at hc
  · rename_i hne
    have hlt : low / n < high / n := Nat.lt_of_le_of_ne (Nat.div_le_div_right h) hne
    have hlow : low < low / n * n + n := Nat.lt_div_mul_add hn
    have hnext : (low / n + 1) * n ≤ high / n * n := Nat.mul_le_mul_right n hlt
    have hhigh : high / n * n ≤ high := Nat.div_mul_le_self high n
    rw [Nat.add_mul, Nat.one_mul] at hnext
    split at hc
    · simp only [Option.some.injEq, Prod.mk.injEq] at hc
      omega
    · split at hc
      · simp only [Option.some.injEq, Prod.mk.injEq] at hc
        omega
      · simp at hc

/-- Both parts of a cut are smaller than the range. -/
theorem cut?_inside {low high a b : Nat} (h : low ≤ high) (hc : cut? low high = some (a, b)) :
    a < high ∧ low < b := by
  unfold cut? at hc
  split at hc
  · simp only [Option.some.injEq, Prod.mk.injEq] at hc
    omega
  · split at hc
    · rename_i m hm
      have hin := List.find?_some hm
      simp only [Bool.and_eq_true, decide_eq_true_eq] at hin
      simp only [Option.some.injEq, Prod.mk.injEq] at hc
      omega
    · split at hc
      · simp at hc
      · simp only [Option.or_eq_some_iff] at hc
        rcases hc with (hc | ⟨_, hc⟩) | ⟨_, hc⟩ <;> exact blockCut?_inside (by decide) h hc

/-- The sequences of a range of code points, in the order of its characters. -/
def byteSequences (low high : Nat) : List (List ByteRange) :=
  if _ : low ≤ high then
    match _ : cut? low high with
    | none => [between low high]
    | some (a, b) => byteSequences low a ++ byteSequences b high
  else []
termination_by high + 1 - low
decreasing_by
  all_goals
    have := cut?_inside ‹low ≤ high› ‹_›
    omega

def sequencesOf (s : CharSet) : List (List ByteRange) := s.flatMap fun r => byteSequences r.1 r.2

end ArrayBridge.Utf8
