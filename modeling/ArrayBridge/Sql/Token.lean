import ArrayBridge.Decimal.Numeral
import ArrayBridge.Sql.Fault

/-!
The text of a statement in tokens, each with its place in the text.
-/
namespace ArrayBridge.Sql

inductive TokenKind
  | word
  | quotedName (name : List Char)
  | string (value : List Char)
  | number (value : Nat)
  | slot (number : Option Nat)
  | symbol
  /-- A float, a number in hexadecimal, bytes, or a slot with a name: well formed, but used by no statement
  here. -/
  | other
  | illegal
  deriving DecidableEq, Repr

structure Token where
  kind : TokenKind
  written : List Char
  /-- Bytes of the text before the token. -/
  offset : Nat
  deriving DecidableEq, Repr

def byteLength (cs : List Char) : Nat := (String.ofList cs).utf8ByteSize

/-- Bytes of the text up to the end of the token. -/
def Token.stop (t : Token) : Nat := t.offset + byteLength t.written

/-- Blanks with which space between tokens can begin. -/
def isBlank (c : Char) : Bool := c ∈ [' ', '\t', '\n', '\x0c', '\r']

/-- Blanks with which it goes on. -/
def isSpace (c : Char) : Bool := isBlank c || c = '\x0b'

/-- The mark of byte order is space by itself. -/
def orderMark : Char := '\uFEFF'

/-- Characters of names. Those beyond ASCII all are. -/
def isNameChar (c : Char) : Bool := c.isAlphanum || c = '_' || c = '$' || 128 ≤ c.toNat

def isSymbol (c : Char) : Bool := c ∈ "()*,;.+-/%=<>|&~".toList

/-- Symbols of more than one character, longer ones first. -/
def longSymbols : List (List Char) :=
  ["->>", "->", "==", "<=", "<>", "<<", ">=", ">>", "!=", "||"].map String.toList

/-- What stands before a closing quote, a doubled one standing for itself, and what follows it. -/
def untilQuote (q : Char) : List Char → Option (List Char × List Char)
  | [] => none
  | [c] => if c = q then some ([], []) else none
  | c :: d :: r =>
    if c ≠ q then (untilQuote q (d :: r)).map fun p => (c :: p.1, p.2)
    else if d = q then (untilQuote q r).map fun p => (q :: p.1, p.2)
    else some ([], d :: r)

def isHexDigit (c : Char) : Bool := c.isDigit || ('a' ≤ c && c ≤ 'f') || ('A' ≤ c && c ≤ 'F')

/-- What follows a fraction, if the text begins with a point. -/
def dropFraction : List Char → List Char
  | '.' :: r => r.dropWhile Char.isDigit
  | cs => cs

/-- What follows an exponent, if the text begins with one that has a digit. -/
def dropExponent (cs : List Char) : List Char :=
  match cs with
  | e :: r =>
    let ds := match r with
      | '+' :: t | '-' :: t => t
      | t => t
    if (e = 'e' ∨ e = 'E') ∧ ds.head?.any Char.isDigit then ds.dropWhile Char.isDigit else cs
  | [] => []

/-- A number. Characters of names directly behind it make it illegal, but not behind hexadecimal digits. -/
def numberToken (cs : List Char) : TokenKind × List Char :=
  match cs with
  | '0' :: x :: d :: r =>
    if (x = 'x' ∨ x = 'X') ∧ isHexDigit d then (.other, r.dropWhile isHexDigit) else decimal
  | _ => decimal
where
  decimal : TokenKind × List Char :=
    let ds := cs.takeWhile Char.isDigit
    let whole := cs.dropWhile Char.isDigit
    let rest := dropExponent (dropFraction whole)
    if rest.head?.any isNameChar then (.illegal, rest.dropWhile isNameChar)
    else if rest.length = whole.length then (.number (Decimal.digitsValue ds), rest)
    else (.other, rest)

/-- Bytes in hexadecimal, behind the opening quote. -/
def bytesToken (cs : List Char) : TokenKind × List Char :=
  let ds := cs.takeWhile isHexDigit
  match cs.dropWhile isHexDigit with
  | '\'' :: r => (if ds.length % 2 = 0 then .other else .illegal, r)
  | r => (.illegal, (r.dropWhile (· ≠ '\'')).tail)

/-- The rest of a slot with a name; `named` says whether there is a character of the name already. A double
colon may stand in the name, and text without blanks in parentheses at its end. -/
def namedSlot (named : Bool) : List Char → TokenKind × List Char
  | ':' :: ':' :: r => namedSlot named r
  | '(' :: r =>
    if named then
      let rest := r.dropWhile fun c => !isSpace c && c ≠ ')'
      if rest.head? = some ')' then (.other, rest.tail) else (.illegal, rest)
    else (.illegal, '(' :: r)
  | c :: r => if isNameChar c then namedSlot true r else (if named then .other else .illegal, c :: r)
  | [] => (if named then .other else .illegal, [])

/-- The kind of the token at the front, and what follows it. -/
def nextToken (c : Char) (r : List Char) : TokenKind × List Char :=
  if c = '\'' then
    match untilQuote c r with
    | some (value, rest) => (.string value, rest)
    | none => (.illegal, [])
  else if c = '"' ∨ c = '`' then
    match untilQuote c r with
    | some (name, rest) => (.quotedName name, rest)
    | none => (.illegal, [])
  else if c = '[' then
    match r.dropWhile (· ≠ ']') with
    | _ :: rest => (.quotedName (r.takeWhile (· ≠ ']')), rest)
    | [] => (.illegal, [])
  else if c = '?' then
    let ds := r.takeWhile Char.isDigit
    (.slot (if ds = [] then none else some (Decimal.digitsValue ds)), r.dropWhile Char.isDigit)
  else if c ∈ ['@', '#', ':', '$'] then namedSlot false r
  else if c.isDigit ∨ (c = '.' ∧ r.head?.any Char.isDigit) then numberToken (c :: r)
  else if (c = 'x' ∨ c = 'X') ∧ r.head? = some '\'' then bytesToken r.tail
  else if isNameChar c then (.word, r.dropWhile isNameChar)
  else
    match longSymbols.find? (·.isPrefixOf (c :: r)) with
    | some w => (.symbol, (c :: r).drop w.length)
    | none => (if isSymbol c then .symbol else .illegal, r)

/-- What follows blanks and comments. A comment in slashes that is not closed goes to the end, but one of
which nothing stands behind its first two characters is none. -/
def dropSpace : Nat → List Char → List Char
  | 0, cs => cs
  | _, [] => []
  | fuel + 1, c :: r =>
    if isBlank c then dropSpace fuel (r.dropWhile isSpace)
    else if c = orderMark then dropSpace fuel r
    else
      match c, r with
      | '-', '-' :: t => dropSpace fuel (t.dropWhile (· ≠ '\n'))
      | '/', '*' :: d :: t => dropSpace fuel (dropComment (d :: t))
      | _, _ => c :: r
where
  dropComment : List Char → List Char
    | '*' :: '/' :: r => r
    | _ :: r => dropComment r
    | [] => []

/-- The tokens of `cs`, which starts at byte `offset` and has `length` characters. Every round takes one. -/
def tokensFrom : Nat → Nat → Nat → List Char → List Token
  | 0, _, _, _ => []
  | fuel + 1, length, offset, cs =>
    let rest := dropSpace length cs
    match rest with
    | [] => []
    | c :: r =>
      let left := rest.length
      let start := offset + byteLength (cs.take (length - left))
      let t := nextToken c r
      let after := t.2.length
      let written := rest.take (left - after)
      ⟨t.1, written, start⟩ :: tokensFrom fuel after (start + byteLength written) t.2

/-- The tokens of a statement, whose text ends at its first NUL. -/
def tokens (sql : String) : List Token :=
  let cs := sql.toList.takeWhile (· ≠ '\x00')
  tokensFrom (cs.length + 1) cs.length 0 cs

end ArrayBridge.Sql
