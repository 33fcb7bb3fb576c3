import ArrayBridge.Bytes

/-!
UTF-8 as one left-to-right scan. The scan reports each character and each longest ill-formed part;
the strict and the lenient reader are two views of its report.
-/
namespace ArrayBridge.Utf8

/-- The UTF-8 form of a text. -/
def encode (cs : List Char) : Bytes := cs.flatMap String.utf8EncodeChar

/-- A character begun: the bits so far, how many bytes are still to come, and the range the next
one must lie in. The range is narrower than `80..BF` only directly after `E0`, `ED`, `F0`, `F4`. -/
structure Pending where
  bits : Nat
  left : Nat
  low : UInt8
  high : UInt8

/-- What one byte leads to. -/
inductive Front
  | char (c : Char)
  | more (p : Pending)
  | bad

def first (b : UInt8) : Front :=
  if b < 0x80 then .char (Char.ofNat b.toNat)
  else if b < 0xC2 then .bad
  else if b < 0xE0 then .more ⟨b.toNat - 0xC0, 1, 0x80, 0xBF⟩
  else if b < 0xF0 then
    .more ⟨b.toNat - 0xE0, 2, if b = 0xE0 then 0xA0 else 0x80, if b = 0xED then 0x9F else 0xBF⟩
  else if b < 0xF5 then
    .more ⟨b.toNat - 0xF0, 3, if b = 0xF0 then 0x90 else 0x80, if b = 0xF4 then 0x8F else 0xBF⟩
  else .bad

def Pending.next (p : Pending) (b : UInt8) : Front :=
  if p.low ≤ b ∧ b ≤ p.high then
    let bits := p.bits * 64 + (b.toNat - 0x80)
    if p.left = 1 then .char (Char.ofNat bits) else .more ⟨bits, p.left - 1, 0x80, 0xBF⟩
  else .bad

/-- Each character of the bytes, with `none` for each longest ill-formed part. A byte that cannot
go on with the character begun ends that part and is read again as a first byte. -/
def scan : Option Pending → Bytes → List (Option Char)
  | none, [] => []
  | some _, [] => [none]
  | none, b :: r =>
    match first b with
    | .char c => some c :: scan none r
    | .more p => scan (some p) r
    | .bad => none :: scan none r
  | some p, b :: r =>
    match p.next b with
    | .char c => some c :: scan none r
    | .more q => scan (some q) r
    | .bad =>
      none ::
        match first b with
        | .char c => some c :: scan none r
        | .more q => scan (some q) r
        | .bad => none :: scan none r

/-- The text, if every byte belongs to a character. -/
def decode? (bs : Bytes) : Option (List Char) := (scan none bs).mapM id

/-- The text with U+FFFD for each ill-formed part. -/
def decodeLossy (bs : Bytes) : List Char := (scan none bs).map (·.getD '\uFFFD')

def Valid (bs : Bytes) : Prop := ∃ cs, decode? bs = some cs

end ArrayBridge.Utf8
