import ArrayBridge.Pattern.Form
import ArrayBridge.Pattern.Sharing

/-!
The limit on the size of a pattern. It is a limit on the memory of two automata that read its matches byte by byte,
one from the front and one from the back. They are not built, only counted: each state with the list that it
keeps, in the order in which states come to be, and no further than to the limit.
-/
namespace ArrayBridge.Pattern

inductive Direction
  | forward
  | backward
  deriving DecidableEq, Repr

/-- The bytes of a state without its list. -/
def stateBytes : Nat := 32

/-- The bytes of a branch in the list of a state that branches. -/
def branchBytes : Nat := 4

def Extent.bytes (e : Extent) : Nat := stateBytes * e.states + e.listBytes

/-- The bytes that an automaton may take. -/
def sizeLimit : Nat := 10485760

/-- Adds to what has been built; nothing if the limit is passed. -/
abbrev Growth := Extent → Option Extent

def Extent.within (e : Extent) : Option Extent := if e.bytes ≤ sizeLimit then some e else none

def Extent.add (e : Extent) (states listBytes : Nat) : Option Extent :=
  Extent.within ⟨e.states + states, e.listBytes + listBytes⟩

/-- How a piece ends: in a state with one way on, or in one that branches and lists its ways. -/
inductive Exit
  | single
  | branching
  deriving DecidableEq, Repr

/-- What going on from a piece adds to its list. -/
def Exit.bytes : Exit → Nat
  | .single => 0
  | .branching => branchBytes

/-- Adds a piece and says how it ends. -/
abbrev Building := Extent → Option (Exit × Extent)

namespace Building

def done (exit : Exit) (e : Option Extent) : Option (Exit × Extent) := e.map (exit, ·)

/-- `n` more pieces behind one that ends in `exit`. -/
def more (b : Building) : Nat → Exit → Building
  | 0, exit, e => some (exit, e)
  | n + 1, exit, e =>
    match b e with
    | none => none
    | some (next, e) =>
      match e.add 0 exit.bytes with
      | none => none
      | some e => more b n next e

def exactly (b : Building) : Nat → Building
  | 0, e => done .single (e.add 1 0)
  | n + 1, e =>
    match b e with
    | none => none
    | some (exit, e) => more b n exit e

/-- `n` more pieces, each of which may be left out together with those behind it. -/
def optionals (b : Building) : Nat → Exit → Building
  | 0, exit, e => some (exit, e)
  | n + 1, exit, e =>
    match (e.add 1 0).bind b with
    | none => none
    | some (next, e) =>
      match e.add 0 (exit.bytes + 2 * branchBytes) with
      | none => none
      | some e => optionals b n next e

def optional (b : Building) : Building := fun e => do
  let (exit, e) ← (← e.add 1 0) |> b
  done .single (e.add 1 (2 * branchBytes + exit.bytes))

/-- Any number of times. What may match the empty text has one choice in front and one behind. -/
def star (consumes : Bool) (b : Building) : Building := fun e => do
  if consumes then
    let (exit, e) ← (← e.add 1 0) |> b
    done .branching (e.add 0 (branchBytes + exit.bytes))
  else
    let (exit, e) ← b e
    done .single (e.add 3 (4 * branchBytes + exit.bytes))

/-- `n + 1` times at least. -/
def plus (b : Building) (n : Nat) : Building := fun e => do
  match n with
  | 0 =>
    let (exit, e) ← b e
    done .branching (e.add 1 (branchBytes + exit.bytes))
  | n + 1 =>
    let (before, e) ← exactly b (n + 1) e
    let (exit, e) ← b e
    done .branching (e.add 1 (branchBytes + before.bytes + exit.bytes))

def bounded (b : Building) (min max : Nat) : Building := fun e => do
  let (exit, e) ← exactly b min e
  let (exit, e) ← optionals b (max - min) exit (← e.add 1 0)
  done .single (e.add 0 exit.bytes)

def repetition (consumes : Bool) (b : Building) : Nat → Option Nat → Building
  | 0, some 1 => optional b
  | 0, none => star consumes b
  | n + 1, none => plus b n
  | min, some max => if min = max then exactly b min else bounded b min max

end Building

/-! ### Literals as branches -/

/-- Words with those behind each empty one in a chunk of their own. -/
def chunks : List Bytes → List (List Bytes)
  | [] => [[]]
  | [] :: ws => [] :: chunks ws
  | w :: ws =>
    match chunks ws with
    | c :: cs => (w :: c) :: cs
    | [] => [[w]]

/-- One empty word in front is as good as many. -/
def dropRepeatedEmpty : List Bytes → List Bytes
  | [] :: [] :: ws => dropRepeatedEmpty ([] :: ws)
  | ws => ws

/-- What the words behind each first byte are. -/
def byFirst (words : List Bytes) : List (List Bytes) :=
  (words.filterMap List.head?).eraseDups.map fun b =>
    (words.filter fun w => w.head? = some b).map List.tail

/-- A tree of words that share their beginnings, but not across the end of a word between them. Each chunk is a
state with a way for each of its first bytes. No word is longer than `depth`. -/
def wordTree : Nat → List Bytes → Extent → Extent
  | 0, _, e => e
  | depth + 1, words, e =>
    let cs := chunks (dropRepeatedEmpty words)
    let filled := (cs.map byFirst).filter (· ≠ [])
    let own : Extent :=
      ⟨e.states + filled.length + 1,
        e.listBytes + branchBytes * (filled.length + (cs.length - 1)) +
          filled.foldl (fun n g => n + if g.length = 1 then 0 else transitionBytes * g.length) 0⟩
    filled.flatten.foldl (fun e ws => if ws.all List.isEmpty then e else wordTree depth ws e) own

def Form.literal? : Form → Option (List Char)
  | .literal text => some text
  | _ => none

/-- The words of branches that all are literals. -/
def Form.words? (d : Direction) (forms : List Form) : Option (List Bytes) :=
  (forms.mapM literal?).map (·.map fun text =>
    match d with
    | .forward => Utf8.encode text
    | .backward => (Utf8.encode text).reverse)

def words (ws : List Bytes) : Building := fun e => do
  let e ← e.add 1 0
  Building.done .single (wordTree (ws.foldl (fun n w => max n w.length) 0) ws e).within

/-! ### Forms -/

def sequences (d : Direction) (seqs : List (List Utf8.ByteRange)) : Building := fun e =>
  match d with
  | .forward => Building.done .single (e.addForward seqs).within
  | .backward => Building.done .single (e.addBackward branchBytes seqs).within

/-- A set; one of ASCII has a single state for all its ranges. -/
def setBuilding (d : Direction) (s : CharSet) : Building :=
  if List.all s (·.2 < 128) then fun e => Building.done .single (e.add 2 (transitionBytes * s.length))
  else sequences d (Utf8.sequencesOf s)

mutual

def Form.building (d : Direction) : Form → Building
  | .empty | .look _ => fun e => Building.done .single (e.add 1 0)
  | .literal text => fun e => Building.done .single (e.add (Utf8.encode text).length 0)
  | .set s => setBuilding d s
  | .repetition form min max _ => Building.repetition form.consumes (building d form) min max
  | .capture _ form => fun e =>
    match d with
    | .forward => do
      let (exit, e) ← building d form (← e.add 1 0)
      Building.done .single (e.add 1 exit.bytes)
    | .backward => building d form e
  | .concat forms => buildingAll d forms
  | .alternate forms =>
    match Form.words? d forms with
    | some ws => words ws
    | none => fun e => Building.done .single (buildingEach d 0 forms e)

/-- One after the other, in the order in which they are read. -/
def Form.buildingAll (d : Direction) : List Form → Building
  | [] => fun e => Building.done .single (e.add 1 0)
  | [f] => building d f
  | f :: g :: r => fun e =>
    match d with
    | .forward => do
      let (exit, e) ← building d f e
      let (last, e) ← buildingAll d (g :: r) e
      Building.done last (e.add 0 exit.bytes)
    | .backward => do
      let (exit, e) ← buildingAll d (g :: r) e
      let (last, e) ← building d f e
      Building.done last (e.add 0 exit.bytes)

/-- Each as a branch, `n` of them after others. The states in front of and behind all branches come to be with
the second one. -/
def Form.buildingEach (d : Direction) (n : Nat) : List Form → Growth
  | [] => some
  | f :: r => fun e => do
    let (exit, e) ← building d f e
    buildingEach d (n + 1) r (← e.add (if n = 1 then 2 else 0) (branchBytes + exit.bytes))

end

mutual

/-- Does every match begin where the condition holds? -/
def Form.opensWith (kind : Look) : Form → Bool
  | .look k => k = kind
  | .capture _ form => opensWith kind form
  | .repetition form min _ _ => 0 < min && opensWith kind form
  | .concat forms => firstOpensWith kind forms
  | .alternate forms => allOpenWith kind forms
  | _ => false

def Form.firstOpensWith (kind : Look) : List Form → Bool
  | [] => false
  | f :: r => opensWith kind f || (f.onlyEmpty && firstOpensWith kind r)

def Form.allOpenWith (kind : Look) : List Form → Bool
  | [] => true
  | f :: r => opensWith kind f && allOpenWith kind r

end

mutual

/-- Does every match end where the condition holds? -/
def Form.closesWith (kind : Look) : Form → Bool
  | .look k => k = kind
  | .capture _ form => closesWith kind form
  | .repetition form min _ _ => 0 < min && closesWith kind form
  | .concat forms => lastClosesWith kind forms
  | .alternate forms => allCloseWith kind forms
  | _ => false

def Form.lastClosesWith (kind : Look) : List Form → Bool
  | [] => false
  | f :: r => lastClosesWith kind r || (r.all Form.onlyEmpty && closesWith kind f)

def Form.allCloseWith (kind : Look) : List Form → Bool
  | [] => true
  | f :: r => closesWith kind f && allCloseWith kind r

end

/-- Can a match only begin where the automaton begins to read? -/
def Form.anchored (f : Form) : Direction → Bool
  | .forward => f.opensWith .textStart
  | .backward => f.closesWith .textEnd

/-- What an automaton begins with: one state, or a loop over the bytes that it passes over. -/
def lead (anchored : Bool) : Extent :=
  if anchored then ⟨1, 0⟩ else ⟨3, transitionBytes + 2 * branchBytes⟩

/-- The whole automaton. Reading forwards it saves where the match begins and ends. -/
def Form.extent? (f : Form) (d : Direction) : Option Extent := do
  let e := lead (f.anchored d)
  match d with
  | .forward =>
    let (exit, e) ← f.building d (← e.add 1 0)
    e.add 2 exit.bytes
  | .backward =>
    let (exit, e) ← f.building d e
    e.add 1 exit.bytes

/-- Is the pattern small enough? -/
def Form.fits (f : Form) : Bool := (f.extent? .forward).isSome && (f.extent? .backward).isSome

end ArrayBridge.Pattern
