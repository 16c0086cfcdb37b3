import BusMachine.Proofs.Instruction.Texts
import BusMachine.Proofs.Machine.Outcomes
import BusMachine.Proofs.Machine.Reachable

/-!
The disassembler and the control unit see the same instructions in memory. Where the text is no
instruction the control unit stops, and elsewhere it reads the words that the text is written from,
and goes on behind them unless the instruction says otherwise. A trace line that is too long to be
written keeps a step from being made.
-/
namespace BusMachine

open Control Disassembly

namespace Visible

variable {v v' : Visible} {c : Opcode} {operands : List Int} {reason : Option StopReason}
  {d : Decoded}

/-- The instruction is a jump that is taken. -/
def Takes : Opcode → List Int → Visible → Prop
  | .jmp, _, _ => True
  | .jn, _, v => v.negative = true
  | .jz, _, v => v.zero = true
  | .jnz, _, v => v.zero = false
  | .jeq, [a, b, _], v => v.valueOf a = v.valueOf b
  | .jgt, [a, b, _], v => v.valueOf a > v.valueOf b
  | .jlw, [a, b, _], v => v.valueOf a < v.valueOf b
  | _, _, _ => False

/-- The register that the instruction writes is the program counter. -/
def WritesCounter (c : Opcode) (operands : List Int) : Prop :=
  c.kinds.getLast? = some .register ∧ operands.getLast? = some (Register.pc.id : Int)

theorem read_of_getElem? {a : Nat} {w : Int} (at_a : v.cells.toList[a]? = some w) :
    v.read a = w := by
  rw [Array.getElem?_toList] at at_a
  rw [read, Int.toNat_natCast, Array.getD_eq_getD_getElem?, at_a, Option.getD_some]

theorem Outcome.counter (h : Outcome c operands v v') (jumps : c.jumps = false) (ret : c ≠ .ret)
    (other : ¬WritesCounter c operands) :
    v'.registers.pc = v.registers.pc := by
  cases h with
  | @register v' a x kind last registers _ =>
    rw [move]
    split
    · next r found =>
      have apart : r ≠ .pc := by
        rintro rfl
        exact other ⟨kind, Register.id_of_ofId? found ▸ last⟩
      have kept : (v'.registers.set r x).get .pc = v'.registers.get .pc := by
        rw [Registers.get_set, if_neg (Ne.symm apart)]
      exact kept.trans (congrArg (Registers.get · .pc) registers)
    · exact congrArg Registers.pc registers
  | store _ _ registers _ => exact congrArg Registers.pc registers
  | stay => rfl
  | jump is_jump => cases jumps.symm.trans is_jump
  | call is_call =>
    subst is_call
    cases jumps
  | ret is_ret => exact absurd is_ret ret

end Visible

def jumpsAhead : Machine := (HostOperation.load [15, 3, 20, -1]).after { main := .blank 4 }

end BusMachine
