import BusMachine.Proofs.Machine.Visible

/-!
The instruction set by kinds of effect. Besides the flags, an instruction changes the register or
the cell that its last operand names, or the program counter, or it pushes or pops one address.
-/
namespace BusMachine

namespace Opcode

/-- Instructions whose memory operand is an address in the program. -/
def jumps : Opcode → Bool
  | .jmp | .jn | .jz | .jnz | .jeq | .jgt | .jlw | .call => true
  | _ => false

/-- Instructions that write the cell that their memory operand names. -/
def stores : Opcode → Bool
  | .addRegMem | .subRegMem | .moveRegMem | .incMem => true
  | _ => false

theorem last_of_jumps {c : Opcode} (jumps : c.jumps = true) : c.kinds.getLast? = some .memory := by
  cases c <;> first | rfl | cases jumps

theorem last_of_stores {c : Opcode} (stores : c.stores = true) :
    c.kinds.getLast? = some .memory := by
  cases c <;> first | rfl | cases stores

end Opcode

namespace Visible

/-- What an instruction can make of the state in which its words have been fetched. -/
inductive Outcome (c : Opcode) (operands : List Int) (v : Visible) : Visible → Prop where
  | register {v' : Visible} {a x : Int} : c.kinds.getLast? = some .register →
      operands.getLast? = some a →
      v'.registers = v.registers → v'.cells = v.cells → Outcome c operands v (v'.move a x)
  | store {v' : Visible} {a x : Int} : c.stores = true → operands.getLast? = some a →
      v'.registers = v.registers → v'.cells = v.cells → Outcome c operands v (v'.write a x)
  | stay : Outcome c operands v v
  | jump {t : Int} : c.jumps = true → operands.getLast? = some t →
      Outcome c operands v (v.setRegister .pc t)
  | call {t : Int} : c = .call → operands.getLast? = some t → Outcome c operands v (v.call t)
  | ret : c = .ret → Outcome c operands v v.ret

theorem jumpIf_outcome {c : Opcode} {operands : List Int} {t : Int} (jumps : c.jumps = true)
    (last : operands.getLast? = some t) (v : Visible) (condition : Prop) [Decidable condition] :
    Outcome c operands v (v.jumpIf condition t) := by
  rw [jumpIf]
  split
  · exact .jump jumps last
  · exact .stay

theorem effect_outcome (c : Opcode) (operands : List Int) (v : Visible)
    (count : operands.length = c.kinds.length) : Outcome c operands v (effect c operands v) := by
  cases c with
  | addRegReg | addMemReg | subRegReg | subMemReg | moveMemReg | moveRegReg | moveImmReg =>
    match operands, count with
    | [a, b], _ => exact .register rfl rfl rfl rfl
  | addRegMem | subRegMem | moveRegMem =>
    match operands, count with
    | [a, i], _ => exact .store rfl rfl rfl rfl
  | incReg =>
    match operands, count with
    | [a], _ => exact .register rfl rfl rfl rfl
  | incMem =>
    match operands, count with
    | [i], _ => exact .store rfl rfl rfl rfl
  | jmp | jn | jz | jnz =>
    match operands, count with
    | [t], _ => exact jumpIf_outcome rfl rfl v _
  | jeq | jgt | jlw =>
    match operands, count with
    | [a, b, t], _ => exact jumpIf_outcome rfl rfl v _
  | call =>
    match operands, count with
    | [t], _ => exact .call rfl rfl
  | ret =>
    match operands, count with
    | [], _ => exact .ret rfl

theorem permits_of_operands {c : Opcode} {operands : List Int} {v : Visible}
    (count : operands.length = c.kinds.length)
    (registers : ∀ kw ∈ c.kinds.zip operands, kw.1 = .register → 0 ≤ kw.2 ∧ kw.2 < 8)
    (cells : ∀ kw ∈ c.kinds.zip operands, kw.1 = .memory → v.Inside kw.2)
    (push : c = .call → v.Inside (v.registers.stktop - 1))
    (pop : c = .ret → v.Inside v.registers.stktop) :
    v.Permits c operands := by
  refine ⟨registers, ?_⟩
  intro a accessed
  cases c with
  | addMemReg | subMemReg | moveMemReg =>
    match operands, count with
    | [i, b], _ =>
      cases accessed
      exact cells (.memory, a) (List.mem_cons_self ..) rfl
  | addRegMem | subRegMem | moveRegMem =>
    match operands, count with
    | [b, i], _ =>
      cases accessed
      exact cells (.memory, a) (List.mem_cons_of_mem _ (List.mem_cons_self ..)) rfl
  | incMem =>
    match operands, count with
    | [i], _ =>
      cases accessed
      exact cells (.memory, a) (List.mem_cons_self ..) rfl
  | call =>
    match operands, count with
    | [t], _ =>
      cases accessed
      exact push rfl
  | ret =>
    match operands, count with
    | [], _ =>
      cases accessed
      exact pop rfl
  | addRegReg | subRegReg | moveRegReg | moveImmReg =>
    match operands, count with
    | [_, _], _ => cases accessed
  | incReg | jmp | jn | jz | jnz =>
    match operands, count with
    | [_], _ => cases accessed
  | jeq | jgt | jlw =>
    match operands, count with
    | [_, _, _], _ => cases accessed

variable {v : Visible}

@[simp] theorem write_registers (a x : Int) : (v.write a x).registers = v.registers := rfl

@[simp] theorem write_size (a x : Int) : (v.write a x).cells.size = v.cells.size :=
  Array.size_setIfInBounds

/-- Words that are loaded and stay in place are an instruction for the program counter that
points at them. -/
theorem holds_of_words {c : Opcode} {operands words : List Int} {a : Nat}
    (code : ∀ (k : Nat) (w : Int), words[k]? = some w → v.read k = w)
    (placed : ∀ (k : Nat) (w : Int), ((c.id : Int) :: operands)[k]? = some w →
      words[a + k]? = some w)
    (counter : v.registers.pc = a) (count : operands.length = c.kinds.length)
    (room : (a : Int) + c.size ≤ v.cells.size) : v.Holds c operands := by
  have word (k : Nat) (w : Int) (hw : ((c.id : Int) :: operands)[k]? = some w) :
      v.read (v.registers.pc + k) = w := by
    rw [counter, ← code _ w (placed k w hw)]
    rfl
  constructor
  · exact count
  · omega
  · omega
  · simpa using word 0 _ rfl
  · intro k w hw
    rw [Int.add_assoc, Int.add_comm 1 (k : Int)]
    exact word (k + 1) w hw

theorem read_write_ne {a b x : Int} (ha : 0 ≤ a) (hb : 0 ≤ b) (apart : a ≠ b) :
    (v.write a x).read b = v.read b := by
  have apart' : a.toNat ≠ b.toNat := by omega
  simp only [read, write, Array.getD_eq_getD_getElem?, Array.getElem?_setIfInBounds_ne apart']

theorem read_write_self {a x : Int} (inside : v.Inside a) : (v.write a x).read a = x := by
  have bound : a.toNat < v.cells.size := by
    have := inside.1
    have := inside.2
    omega
  simp only [read, write, Array.getD_eq_getD_getElem?,
    Array.getElem?_setIfInBounds_self_of_lt bound, Option.getD_some]

end Visible

end BusMachine
