import ArrayBridge.Pattern.Form

/-!
Patterns as programs of a machine that follows one thread at a time and prefers earlier branches. A form
is emitted in front of the instruction that follows it, which is why every piece takes that as an argument.
-/
namespace ArrayBridge.Pattern

inductive Instr
  | char (set : CharSet) (next : Nat)
  | look (kind : Look) (next : Nat)
  | save (slot next : Nat)
  | split (branches : List Nat)
  | accept
  deriving Repr

abbrev Code := Array Instr

/-- Emits code that goes on at the given place, and says where it begins. -/
abbrev Emit := Nat → Code → Nat × Code

namespace Emit

def one (f : Nat → Instr) : Emit := fun next code => (code.size, code.push (f next))

def skip : Emit := fun next code => (next, code)

def seq (a b : Emit) : Emit := fun next code =>
  let r := b next code
  a r.1 r.2

/-- `n` times, the last one first. -/
def copies (e : Emit) : Nat → Emit
  | 0 => skip
  | n + 1 => fun next code =>
    let r := e next code
    copies e n r.1 r.2

/-- Prefers going in, or going on where it is not greedy. -/
def choice (greedy : Bool) (inside next : Nat) : Instr :=
  .split (if greedy then [inside, next] else [next, inside])

/-- Once and then again as often as wanted: where it begins, and where it chooses. -/
def loop (greedy : Bool) (e : Emit) (next : Nat) (code : Code) : Nat × Nat × Code :=
  let top := code.size
  let r := e top (code.push (.split []))
  (r.1, top, r.2.setIfInBounds top (choice greedy r.1 next))

def plus (greedy : Bool) (e : Emit) : Emit := fun next code =>
  let r := loop greedy e next code
  (r.1, r.2.2)

/-- What may match the empty text is entered by a choice of its own, so that a round that takes nothing
still counts as a match of its groups. -/
def star (greedy consumes : Bool) (e : Emit) : Emit := fun next code =>
  let r := loop greedy e next code
  if consumes then (r.2.1, r.2.2) else (r.2.2.size, r.2.2.push (choice greedy r.1 next))

/-- Up to `n` times in front of the place `inner`, each round inside the one before; all leave to `next`. -/
def upTo (greedy : Bool) (e : Emit) (next : Nat) : Nat → Emit
  | 0 => skip
  | n + 1 => fun inner code =>
    let r := e inner code
    upTo greedy e next n r.2.size (r.2.push (choice greedy r.1 next))

def repetition (greedy consumes : Bool) (e : Emit) : Nat → Option Nat → Emit
  | 0, none => star greedy consumes e
  | n + 1, none => (copies e n).seq (plus greedy e)
  | n, some m => fun next code =>
    let r := upTo greedy e next (m - n) next code
    copies e n r.1 r.2

end Emit

mutual

def Form.emit : Form → Emit
  | .empty => .skip
  | .literal text => fun next code =>
    text.foldr (fun c r => Emit.one (.char (.single c)) r.1 r.2) (next, code)
  | .set s => .one (.char s)
  | .look kind => .one (.look kind)
  | .repetition form min max greedy => Emit.repetition greedy form.consumes (emit form) min max
  | .capture i form => (Emit.one (.save (2 * i))).seq ((emit form).seq (.one (.save (2 * i + 1))))
  | .concat forms => emitAll forms
  | .alternate forms => fun next code =>
    let r := emitEach forms next code
    (r.2.size, r.2.push (.split r.1))

def Form.emitAll : List Form → Emit
  | [] => .skip
  | f :: r => (emit f).seq (emitAll r)

def Form.emitEach : List Form → Nat → Code → List Nat × Code
  | [], _, code => ([], code)
  | f :: r, next, code =>
    let a := emit f next code
    let b := emitEach r next a.2
    (a.1 :: b.1, b.2)

end

structure Program where
  start : Nat
  code : Code

def Program.ofForm (f : Form) : Program :=
  let r := f.emit 0 #[.accept]
  ⟨r.1, r.2⟩

end ArrayBridge.Pattern
