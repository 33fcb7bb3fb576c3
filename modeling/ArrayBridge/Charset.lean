import ArrayBridge.Bytes

/-!
Host text has one byte a character (Latin-1), engine text is UTF-8. Only the two-byte part of UTF-8 is
known here: a longer sequence is folded pairwise like any other high byte.
-/
namespace ArrayBridge

/-- Whether text that crosses between host and engine is converted. -/
inductive Charset
  | convert
  | identity
  deriving DecidableEq, Repr

namespace Charset

def ofFlag (convert : Bool) : Charset := if convert then .convert else .identity

/-- Each byte from 80 on becomes two. -/
def widen : Bytes → Bytes
  | [] => []
  | b :: r =>
    if b < 0x80 then b :: widen r
    else ((0xC0 : UInt8) + (b >>> 6)) :: ((0x80 : UInt8) + (b &&& 0x3F)) :: widen r

/-- Each byte from 80 on is joined with the byte after it; at the end, with a zero. -/
def fold : Bytes → Bytes
  | [] => []
  | [b] => if b < 0x80 then [b] else [b <<< 6]
  | b :: c :: r => if b < 0x80 then b :: fold (c :: r) else ((b <<< 6) ||| (c &&& 0x3F)) :: fold r

/-- Latin-1 to UTF-8, up to the first NUL. -/
def toUtf8 (latin1 : Bytes) : Bytes := widen latin1.untilNul

/-- UTF-8 to Latin-1, up to the first NUL. -/
def toSingleByte (utf8 : Bytes) : Bytes := fold utf8.untilNul

/-- A low byte stands for itself. A high byte takes two in UTF-8, and begins a pair in text that is read. -/
def width (b : UInt8) : Nat := if b < 0x80 then 1 else 2

/-- Counts the steps of a reader from position `i` on. The last one may go beyond the end. -/
def countSteps (bs : Bytes) (i count : Nat) : Nat :=
  if h : i < bs.length then countSteps bs (i + width bs[i]) (count + 1) else count
termination_by bs.length - i
decreasing_by
  rw [width]
  split <;> omega

/-- The number of bytes `toUtf8` writes, without writing them. -/
def utf8Length (latin1 : Bytes) : Nat := latin1.untilNul.foldl (fun count b => count + width b) 0

/-- The number of bytes `toSingleByte` writes, without writing them. -/
def singleByteLength (utf8 : Bytes) : Nat := countSteps utf8.untilNul 0 0

/-- Host text as the engine keeps it. -/
def toEngine : Charset → Bytes → Bytes
  | .convert, host => toUtf8 host
  | .identity, host => host.untilNul

/-- Engine text as the host sees it. -/
def toHost : Charset → Bytes → Bytes
  | .convert, engine => toSingleByte engine
  | .identity, engine => engine.untilNul

end Charset

end ArrayBridge
