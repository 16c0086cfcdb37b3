import BusMachine.Datapath.Register
import BusMachine.Instruction.Opcode
import BusMachine.Position
import BusMachine.Text.Column

/-! Words written out as instructions. What is no whole instruction is shown as a plain word. -/
namespace BusMachine

open Text

def OperandKind.textOf (kind : OperandKind) (w : Int) : String :=
  match kind with
  | .register =>
    match Register.ofId? w with
    | some r => "%" ++ r.lowerName
    | none => "%?" ++ toString w
  | .memory => "[" ++ toString w ++ "]"
  | .immediate => toString w

structure Decoded where
  text : String
  size : Nat
deriving DecidableEq, Repr

inductive DisassemblyError where
  | position (e : IndexError)
  | numeral (e : NumeralError)
deriving DecidableEq, Repr

def DisassemblyError.message : DisassemblyError → String
  | .position e => e.message
  | .numeral e => e.message

namespace Disassembly

def wordAt (words : List Int) (i : Int) : Except DisassemblyError Int :=
  (Position.read words i).mapError .position

def write {α : Type} (k : Writing) (ws : List Int) (made : α) : Except DisassemblyError α :=
  (k.require ws made).mapError .numeral

def operands (k : Writing) (words : List Int) :
    Int → List OperandKind → Except DisassemblyError (List String)
  | _, [] => .ok []
  | i, kind :: kinds => do
    let w ← wordAt words i
    let text ← write k [w] (kind.textOf w)
    let rest ← operands k words (i + 1) kinds
    return text :: rest

def plainWord (w : Int) : Decoded := ⟨".word " ++ toString w, 1⟩

/-- The opcode of an instruction that is cut off is shown as a plain word. -/
def decodeAt (k : Writing) (words : List Int) (i : Int) : Except DisassemblyError Decoded := do
  let w ← wordAt words i
  if w = haltWord then return ⟨"halt", 1⟩
  match Opcode.ofWord? w with
  | none => write k [w] (plainWord w)
  | some c =>
    if words.length < i + c.size then return plainWord w
    let texts ← operands k words (i + 1) c.kinds
    return ⟨" ".intercalate (c.mnemonic :: texts), c.size⟩

structure Line where
  address : Int
  words : List Int
  text : String
deriving DecidableEq, Repr

def Line.render (l : Line) : String :=
  zeroPadded 4 l.address ++ ": " ++ alignLeft 16 (" ".intercalate (l.words.map toString)) ++
    "  " ++ l.text

theorem eq_of_write {α : Type} {k : Writing} {ws : List Int} {made a : α}
    (h : write k ws made = .ok a) : made = a := by
  unfold write Writing.require at h
  split at h
  · exact Except.ok.inj h
  · cases h

theorem decodeAt_size_pos {k : Writing} {words : List Int} {i : Int} {d : Decoded}
    (h : decodeAt k words i = .ok d) : 0 < d.size := by
  unfold decodeAt at h
  simp only [bind, Except.bind, pure, Except.pure] at h
  repeat' split at h
  all_goals first
    | contradiction
    | (cases h; first | exact Nat.one_pos | exact Nat.add_pos_left Nat.one_pos _)
    | (cases eq_of_write h; exact Nat.one_pos)

/-- The lines of the instructions that begin in the range, up to the first halt. -/
def linesBetween (k : Writing) (words : List Int) (start stop : Int) :
    Except DisassemblyError (List Line) :=
  if start < stop then
    match h : decodeAt k words start with
    | .error e => .error e
    | .ok d =>
      have : 0 < d.size := decodeAt_size_pos h
      let line : Line := ⟨start, Position.slice words start (start + d.size), d.text⟩
      match wordAt words start with
      | .error e => .error e
      | .ok w =>
        if w = haltWord then .ok [line]
        else match linesBetween k words (start + d.size) stop with
          | .error e => .error e
          | .ok rest => .ok (line :: rest)
  else .ok []
termination_by (stop - start).toNat

end Disassembly

open Disassembly in
def disassemble (k : Writing) (words : List Int) (start : Int) (stop : Option Int) :
    Except DisassemblyError (List String) := do
  let lines ← linesBetween k words start (stop.getD words.length)
  lines.mapM (fun l => write k l.words l.render)

end BusMachine
