import BusMachine.Machine.Cycle
import BusMachine.Proofs.Machine.Safety
import BusMachine.Proofs.Machine.Visible

/-!
Fetching. The words of an instruction are read one after the other, and of what a program sees only
the program counter and the instruction register change.
-/
namespace BusMachine

open Control MicroProgram

variable {m : Machine}

namespace Machine

theorem perform_select_main (low : 0 ≤ m.buses.external) (high : m.buses.external < m.main.size) :
    m.perform (.select .main) =
      .ok { m with main := { m.main with latch := m.buses.external.toNat } } :=
  perform_select (Memory.select_of_inside "MEM" low high)

theorem perform_select_main_of_outside
    (outside : ¬(0 ≤ m.buses.external ∧ m.buses.external < m.main.size)) :
    m.perform (.select .main) =
      .error ((Fault.address "MEM" m.buses.external m.main.size).raised m.writing) :=
  perform_select_error (Memory.select_of_outside "MEM" outside)

theorem perform_read_main (latch : m.main.latch < m.main.size) :
    m.perform (.read .main) =
      .ok { m with buses := { m.buses with external := m.main.cells.getD m.main.latch 0 } } :=
  perform_read (k := .main) ⟨rfl, latch⟩

theorem perform_store_main (latch : m.main.latch < m.main.size) :
    m.perform (.store .main) =
      .ok { m with
        main :=
  { m.main with cells := m.main.cells.setIfInBounds m.main.latch m.buses.external } } :=
  perform_store (k := .main) ⟨rfl, latch⟩

/-- The word at the program counter is on both system buses. -/
def wordRead (m : Machine) : Machine :=
  let w := m.main.cells.getD m.registers.pc.toNat 0
  { m with
    buses := ⟨w, w, m.buses.alu⟩
    main := { m.main with latch := m.registers.pc.toNat } }

/-- The program counter has moved on, and the arithmetic unit holds its new value. -/
def advanced (m : Machine) : Machine :=
  let next := m.registers.pc + 1
  { m with
    registers := { m.registers with pc := next }
    buses := { m.buses with internal := next, alu := next }
    alu := { m.alu with second := next } }

end Machine

namespace Control

theorem performAll_cons {op : MicroOp} {m' : Machine} (ops : List MicroOp)
    (h : m.perform op = .ok m') :
    performAll (op :: ops) m = performAll ops m' := by
  simp only [performAll, h]

theorem performAll_append {m' : Machine} {xs : List MicroOp} (ys : List MicroOp)
    (h : performAll xs m = .ok () m') : performAll (xs ++ ys) m = performAll ys m' := by
  induction xs generalizing m with
  | nil =>
    cases h
    rfl
  | cons op ops ih =>
    cases done : m.perform op with
    | error e => simp [performAll, done] at h
    | ok next =>
      rw [performAll_cons ops done] at h
      rw [List.cons_append, performAll_cons _ done]
      exact ih h

theorem performAll_append_of_error {m' : Machine} {e : DatapathError} {xs : List MicroOp}
    (ys : List MicroOp) (h : performAll xs m = .error e m') :
    performAll (xs ++ ys) m = .error e m' := by
  induction xs generalizing m with
  | nil => cases h
  | cons op ops ih =>
    cases done : m.perform op with
    | error e' =>
      rw [List.cons_append]
      simpa only [performAll, done] using h
    | ok next =>
      rw [performAll_cons ops done] at h
      rw [List.cons_append, performAll_cons _ done]
      exact ih h

theorem performAll_readWord (low : 0 ≤ m.registers.pc) (high : m.registers.pc < m.main.size) :
    performAll readWord m = .ok () m.wordRead := by
  have latch : m.registers.pc.toNat < m.main.size := by omega
  rw [readWord, performAll_cons _ rfl, performAll_cons _ rfl,
    performAll_cons _ (Machine.perform_select_main low high),
    performAll_cons _ (Machine.perform_read_main latch)]
  rfl

theorem performAll_advance (m : Machine) : performAll advance m = .ok () m.advanced := rfl

theorem fetch_of_outside (outside : ¬(0 ≤ m.registers.pc ∧ m.registers.pc < m.main.size)) :
    fetch m = .ok (some .outOfRange) m := by
  rw [fetch, get_bind, if_neg outside]
  rfl

theorem fetch_of_inside (low : 0 ≤ m.registers.pc) (high : m.registers.pc < m.main.size) :
    fetch m = .ok none
      (m.wordRead.setRegister .ir (m.main.cells.getD m.registers.pc.toNat 0)).advanced := by
  have done : performAll fetchInstruction m = .ok ()
      (m.wordRead.setRegister .ir (m.main.cells.getD m.registers.pc.toNat 0)).advanced := by
    rw [fetchInstruction, performAll_append _ (performAll_readWord low high), performAll_cons _ rfl]
    exact performAll_advance _
  rw [fetch, get_bind, if_pos (And.intro low high), bind_of_ok done]
  rfl

end Control

namespace Visible

/-- An operand word has been read; an immediate is kept in the instruction register. -/
def passed (v : Visible) (kind : OperandKind) (w : Int) : Visible :=
  { v with
    registers := { v.registers with
      ir := if kind = .immediate then w else v.registers.ir
      pc := v.registers.pc + 1 } }

def passedAll (v : Visible) : List OperandKind → List Int → Visible
  | kind :: kinds, w :: ws => (v.passed kind w).passedAll kinds ws
  | _, _ => v

/-- The operand words may end before the operands of the instruction do. -/
theorem passedAll_kinds (v : Visible) (c : Opcode) (operands : List Int)
    (count : operands.length ≤ c.kinds.length) (opcode : v.registers.ir = c.id) :
    v.passedAll c.kinds operands =
      { v with registers := { v.registers with
          ir := held c operands, pc := v.registers.pc + operands.length } } := by
  cases c <;> simp only [Opcode.kinds, List.length_cons, List.length_nil] at count ⊢ <;>
    rcases operands with _ | ⟨a, _ | ⟨b, _ | ⟨t, _ | ⟨u, rest⟩⟩⟩⟩ <;>
    simp only [List.length_cons, List.length_nil] at count <;> first
    | omega
    | simp [passedAll, passed, held, ← opcode, Int.add_assoc]

end Visible

namespace Control

theorem fetchOperand_of_inside (kind : OperandKind) (low : 0 ≤ m.registers.pc)
    (high : m.registers.pc < m.main.size) :
    ∃ m', fetchOperand kind m = .ok (m.visible.read m.registers.pc) m' ∧
      m'.visible = m.visible.passed kind (m.visible.read m.registers.pc) ∧
        m'.status = m.status := by
  rw [fetchOperand, bind_of_ok (performAll_readWord low high), get_bind]
  cases kind with
  | immediate => exact ⟨_, rfl, rfl, rfl⟩
  | register => exact ⟨_, rfl, rfl, rfl⟩
  | memory => exact ⟨_, rfl, rfl, rfl⟩

theorem fetchOperands_of_inside (kinds : List OperandKind) (operands : List Int)
    (count : operands.length = kinds.length) (low : 0 ≤ m.registers.pc)
    (high : m.registers.pc + kinds.length ≤ m.main.size)
    (words : ∀ (i : Nat) (w : Int), operands[i]? = some w →
      m.visible.read (m.registers.pc + i) = w) :
    ∃ m', fetchOperands kinds m = .ok operands m' ∧
      m'.visible = m.visible.passedAll kinds operands ∧
      m'.status = m.status := by
  induction kinds generalizing m operands with
  | nil =>
    obtain rfl := List.length_eq_zero_iff.mp count
    exact ⟨m, rfl, rfl, rfl⟩
  | cons kind kinds ih =>
    cases operands with
    | nil => simp at count
    | cons w ws =>
      simp only [List.length_cons, Int.natCast_add, Int.cast_ofNat_Int] at count high
      obtain ⟨m₁, run, seen, status⟩ := fetchOperand_of_inside (m := m) kind low (by omega)
      have word : m.visible.read m.registers.pc = w := by simpa using words 0 w rfl
      rw [word] at run seen
      have counter : m₁.registers.pc = m.registers.pc + 1 := congrArg (fun v => v.registers.pc) seen
      have cells : m₁.main.cells = m.main.cells := congrArg Visible.cells seen
      have size : m₁.main.size = m.main.size := congrArg Array.size cells
      obtain ⟨m₂, rest, seen', status'⟩ :=
        ih (m := m₁) ws (by omega) (by omega) (by omega) (fun i x hx => by
        have later := words (i + 1) x hx
        rw [seen, counter]
        simpa [Visible.passed, Visible.read, Int.add_assoc, Int.add_comm 1] using later)
      refine ⟨m₂, ?_, ?_, status'.trans status⟩
      · rw [fetchOperands, bind_of_ok run, bind_of_ok rest]
        rfl
      · rw [seen', seen]
        rfl

end Control

end BusMachine
