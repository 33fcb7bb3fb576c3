import ArrayBridge.Cell
import ArrayBridge.Decimal.Numeral
import ArrayBridge.Decimal.Rounded
import ArrayBridge.HostValue
import ArrayBridge.Pattern.Replacement
import ArrayBridge.Sql.Fault

/-!
The functions that every session adds to the engine: powers, and patterns that see text as the host
does.
-/
namespace ArrayBridge.Sql

/-- The bytes that may stand before a number. -/
def isBlankByte (b : UInt8) : Bool := b = 32 || b = 9 || b = 10 || b = 12 || b = 13

def isDigitByte (b : UInt8) : Bool := '0'.toUInt8 ≤ b && b ≤ '9'.toUInt8

/-- How many blanks stand at the front. -/
def blankCount (bytes : Bytes) : Nat := (bytes.findIdx? (!isBlankByte ·)).getD bytes.length

/-- How many digits stand from a place on. Past the end there are none. -/
def digitCount (bytes : Bytes) (i : Nat) : Nat :=
  ((bytes.drop (min i bytes.length)).takeWhile isDigitByte).length

/-- How many signs stand at a place: one or none. -/
def signCount (bytes : Bytes) (i : Nat) : Nat :=
  if bytes[i]? = some '+'.toUInt8 ∨ bytes[i]? = some '-'.toUInt8 then 1 else 0

/-- How many digits stand behind a point at a place, and where they end. Without a point there are none. -/
def fractionAt (bytes : Bytes) (i : Nat) : Nat × Nat :=
  if bytes[i]? = some '.'.toUInt8 then
    let n := digitCount bytes (i + 1)
    (n, i + 1 + n)
  else (0, i)

/-- The end of the exponent at a place; without digits there is none and the end is the place itself. -/
def exponentEnd (bytes : Bytes) (i : Nat) : Nat :=
  if bytes[i]? = some 'e'.toUInt8 ∨ bytes[i]? = some 'E'.toUInt8 then
    let first := i + 1 + signCount bytes (i + 1)
    let n := digitCount bytes first
    if 0 < n then first + n else i
  else i

/-- The end of the longest numeral at the front. One digit is needed, on either side of the point. -/
def numeralEnd? (bytes : Bytes) : Option Nat :=
  let first := signCount bytes 0
  let whole := digitCount bytes first
  let fraction := fractionAt bytes (first + whole)
  if whole + fraction.1 = 0 then none else some (exponentEnd bytes fraction.2)

/-- The value of the longest numeral at the front, blanks aside; zero if there is none. -/
def leadingNumber (bytes : Bytes) : Binary64 :=
  let rest := bytes.drop (blankCount bytes)
  match numeralEnd? rest with
  | none => .zero false
  | some stop => ((Utf8.decode? (rest.take stop)).bind Decimal.parse?).getD (.zero false)

/-- A cell as a number; a NULL is none. -/
def numberOf : Cell → Option Binary64
  | .null => none
  | .integer i => some (.ofInt i.toInt)
  | .float x => some x
  | .text bytes => some (leadingNumber bytes)
  | .blob _ => some (.zero false)

/-- A decimal without the last zeros of its fraction, but with one digit there at least. -/
def withFraction (ds : List Char) : List Char :=
  let ds := if '.' ∈ ds then (ds.reverse.dropWhile (· = '0')).reverse else ds ++ ['.']
  if ds.getLast? = some '.' then ds ++ ['0'] else ds

/-- An exponent with its sign and two digits at least. -/
def exponentText (e : Int) : List Char :=
  let ds := Decimal.digits e.natAbs
  'e' :: (if e < 0 then '-' else '+') :: (Decimal.zeros (2 - ds.length) ++ ds)

/-- A float with fifteen significant digits and a point: positional where its exponent is from -4 to 14,
else with one digit before the point and an exponent. -/
def floatText (x : Binary64) : List Char :=
  if x.isInfinite then if x.negative then "-Inf".toList else "Inf".toList
  else
    let s := Decimal.scientific 14 x
    if s.2 < -4 ∨ 15 ≤ s.2 then withFraction s.1 ++ exponentText s.2
    else withFraction (Decimal.fixed (14 - s.2).toNat x)

/-- A cell as text; a NULL is none. -/
def textOf : Cell → Option Bytes
  | .null => none
  | .integer i => some (Utf8.encode (toString i.toInt).toList)
  | .float x => some (Utf8.encode (floatText x))
  | .text bytes | .blob bytes => some bytes

/-- `x` to the power `y`; NULL if one of them is. -/
def pow (x y : Cell) : Cell :=
  match numberOf x, numberOf y with
  | some a, some b => (Cell.float (a.pow b)).bound
  | _, _ => .null

/-- Engine text as the characters that the host sees. -/
def decodeText (charset : Charset) (bytes : Bytes) : List Char :=
  match charset with
  | .convert => latin1 (charset.toHost bytes)
  | .identity => Utf8.decodeLossy bytes.untilNul

/-- Characters that the host sees as engine text. -/
def encodeText (charset : Charset) (cs : List Char) : Bytes :=
  match charset with
  | .convert => Utf8.encode (Utf8.decodeLossy (charset.toEngine (latin1Bytes cs)))
  | .identity => Utf8.encode cs

/-- A pattern that is ready for use: the text of its first match, whether there is one, and a text with every
match replaced. -/
structure Matcher where
  find? : List Char → Option (List Char)
  isMatch : List Char → Bool
  replaceAll : List Char → List Char → List Char

/-- The first match of the pattern in the text, or the text with every match replaced. NULL if nothing
matches. -/
def Matcher.apply (m : Matcher) (text : List Char) (replacement : Option (List Char)) : Option (List Char) :=
  match replacement with
  | none => m.find? text
  | some r => if m.isMatch text then some (m.replaceAll text r) else none

/-- What makes a pattern of its source, or says why that is none. -/
abbrev Matchers := List Char → Except Fault Matcher

/-- `regex(text, pattern)` and `regex(text, pattern, replacement)`. A NULL among the arguments makes the
result NULL before the pattern is looked at. -/
def regexWith (matchers : Matchers) (charset : Charset) (text pattern : Cell) (replacement : Option Cell) :
    Except Fault Cell :=
  match textOf text, textOf pattern, replacement.map textOf with
  | none, _, _ | _, none, _ | _, _, some none => .ok .null
  | some t, some p, r =>
    match matchers (decodeText charset p) with
    | .error f => .error f
    | .ok m =>
      match m.apply (decodeText charset t) (r.join.map (decodeText charset)) with
      | none => .ok .null
      | some cs => .ok (.text (encodeText charset cs))

def matcher : Matchers := fun source =>
  match Pattern.compile source with
  | .error (.unreadable _) => .error .badPattern
  | .error .tooLarge => .error (.largePattern Pattern.sizeLimit)
  | .ok c => .ok ⟨c.find?, c.isMatch, c.replaceAll⟩

def regex : Charset → Cell → Cell → Option Cell → Except Fault Cell := regexWith matcher

/-- A function by its name, in any letter case. -/
inductive Builtin
  | pow
  | regex
  deriving DecidableEq, Repr

namespace Builtin

def ofName? (name : String) : Option Builtin :=
  match name.toLower with
  | "pow" => some .pow
  | "regex" => some .regex
  | _ => none

def takes : Builtin → Nat → Bool
  | .pow, n => n = 2
  | .regex, n => n = 2 || n = 3

/-- Only called with a number of arguments that the function takes. -/
def call (charset : Charset) : Builtin → List Cell → Except Fault Cell
  | .pow, [x, y] => .ok (Sql.pow x y)
  | .regex, [t, p] => Sql.regex charset t p none
  | .regex, [t, p, r] => Sql.regex charset t p (some r)
  | _, _ => .error .misuse

end Builtin

end ArrayBridge.Sql
