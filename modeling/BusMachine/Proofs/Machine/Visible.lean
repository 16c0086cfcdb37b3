import BusMachine.Machine.Report
import BusMachine.Machine.MicroOp

/-!
The instruction set as a program sees it: eight registers, two flags and the cells of memory. Buses,
latches and the arithmetic unit do not occur here, and no micro-operation is used.
-/
namespace BusMachine

structure Visible where
  registers : Registers
  zero : Bool
  negative : Bool
  cells : Array Int
deriving DecidableEq, Repr

def Machine.visible (m : Machine) : Visible :=
  ⟨m.registers, m.flagBit .zero, m.flagBit .negative, m.main.cells⟩

namespace Machine

@[simp] theorem visible_registers (m : Machine) : m.visible.registers = m.registers := rfl

@[simp] theorem visible_zero (m : Machine) : m.visible.zero = m.flagBit .zero := rfl

@[simp] theorem visible_negative (m : Machine) : m.visible.negative = m.flagBit .negative := rfl

@[simp] theorem visible_cells (m : Machine) : m.visible.cells = m.main.cells := rfl

end Machine

namespace Visible

/-- An address that has a cell. -/
def Inside (v : Visible) (a : Int) : Prop := 0 ≤ a ∧ a < v.cells.size

def read (v : Visible) (a : Int) : Int := v.cells.getD a.toNat 0

def write (v : Visible) (a x : Int) : Visible := { v with cells := v.cells.setIfInBounds a.toNat x }

def setRegister (v : Visible) (r : Register) (x : Int) : Visible :=
  { v with registers := v.registers.set r x }

/-- The word in the register of that id. -/
def valueOf (v : Visible) (id : Int) : Int :=
  match Register.ofId? id with
  | some r => v.registers.get r
  | none => 0

/-- Copies a word to the register of that id. -/
def move (v : Visible) (id x : Int) : Visible :=
  match Register.ofId? id with
  | some r => v.setRegister r x
  | none => v

/-- The flags say of a result whether it is zero and whether it is negative. -/
def flag (v : Visible) (result : Int) : Visible :=
  { v with zero := result = 0, negative := result < 0 }

def jumpIf (v : Visible) (condition : Prop) [Decidable condition] (target : Int) : Visible :=
  if condition then v.setRegister .pc target else v

theorem jumpIf_congr {p q : Prop} [Decidable p] [Decidable q] (h : p ↔ q) (v : Visible)
    (target : Int) :
    v.jumpIf p target = v.jumpIf q target := by
  simp only [jumpIf, h]

/-- The stack pointer goes down, and the address after the call is kept where it then points. -/
def call (v : Visible) (target : Int) : Visible :=
  let top := v.registers.stktop - 1
  ((v.write top v.registers.pc).setRegister .stktop top).setRegister .pc target

def ret (v : Visible) : Visible :=
  (v.setRegister .pc (v.read v.registers.stktop)).setRegister .stktop (v.registers.stktop + 1)

/-- What each instruction does to the state in which its words have been fetched. -/
def effect : Opcode → List Int → Visible → Visible
  | .addRegReg, [a, b], v => let x := v.valueOf a + v.valueOf b; (v.flag x).move b x
  | .addMemReg, [i, a], v => let x := v.read i + v.valueOf a; (v.flag x).move a x
  | .addRegMem, [a, i], v => let x := v.valueOf a + v.read i; (v.flag x).write i x
  | .subRegReg, [a, b], v => let x := v.valueOf a - v.valueOf b; (v.flag x).move b x
  | .subMemReg, [i, a], v => let x := v.read i - v.valueOf a; (v.flag x).move a x
  | .subRegMem, [a, i], v => let x := v.valueOf a - v.read i; (v.flag x).write i x
  | .moveMemReg, [i, a], v => v.move a (v.read i)
  | .moveRegMem, [a, i], v => v.write i (v.valueOf a)
  | .moveRegReg, [a, b], v => v.move b (v.valueOf a)
  | .moveImmReg, [x, a], v => v.move a x
  | .incReg, [a], v => let x := v.valueOf a + 1; (v.flag x).move a x
  | .incMem, [i], v => let x := v.read i + 1; (v.flag x).write i x
  | .jmp, [t], v => v.jumpIf True t
  | .jn, [t], v => v.jumpIf v.negative t
  | .jz, [t], v => v.jumpIf v.zero t
  | .jnz, [t], v => v.jumpIf (!v.zero) t
  | .jeq, [a, b, t], v => v.jumpIf (v.valueOf a = v.valueOf b) t
  | .jgt, [a, b, t], v => v.jumpIf (v.valueOf a > v.valueOf b) t
  | .jlw, [a, b, t], v => v.jumpIf (v.valueOf a < v.valueOf b) t
  | .call, [t], v => v.call t
  | .ret, [], v => v.ret
  | _, _, v => v

/-- The word left in the instruction register: the immediate if there is one, else the opcode. -/
def held : Opcode → List Int → Int
  | .moveImmReg, x :: _ => x
  | c, _ => c.id

/-- The state in which the words of an instruction have been fetched. -/
def fetched (v : Visible) (c : Opcode) (operands : List Int) : Visible :=
  { v with registers := { v.registers with ir := held c operands, pc := v.registers.pc + c.size } }

/-- The cell of memory that an instruction works on, with the stack pointer at `top`. -/
def accessed? : Opcode → List Int → Int → Option Int
  | .addMemReg, [i, _], _ | .subMemReg, [i, _], _ | .moveMemReg, [i, _], _ => some i
  | .addRegMem, [_, i], _ | .subRegMem, [_, i], _ | .moveRegMem, [_, i], _ => some i
  | .incMem, [i], _ => some i
  | .call, [_], top => some (top - 1)
  | .ret, [], top => some top
  | _, _, _ => none

/-- The words of the instruction stand in memory at the program counter. -/
structure Holds (v : Visible) (c : Opcode) (operands : List Int) : Prop where
  count : operands.length = c.kinds.length
  low : 0 ≤ v.registers.pc
  high : v.registers.pc + c.size ≤ v.cells.size
  opcode : v.read v.registers.pc = c.id
  words : ∀ (i : Nat) (w : Int), operands[i]? = some w → v.read (v.registers.pc + 1 + i) = w

/-- Register ids name registers, and the address worked on has a cell. -/
structure Permits (v : Visible) (c : Opcode) (operands : List Int) : Prop where
  registers : ∀ kw ∈ c.kinds.zip operands, kw.1 = .register → 0 ≤ kw.2 ∧ kw.2 < 8
  address : ∀ a, accessed? c operands v.registers.stktop = some a → v.Inside a

end Visible

end BusMachine
