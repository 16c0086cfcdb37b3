import BusMachine.Proofs.Assembly.Boundaries
import BusMachine.Proofs.Machine.MicroPrograms
import BusMachine.Proofs.Machine.Outcomes

/-!
Well-behaved programs keep to themselves: the instruction set leads them from boundary to boundary,
their words stay as they were loaded, and what the stack holds are boundaries too.
-/
namespace BusMachine

/-- Jumps and calls go to labels, no instruction writes the program counter or the stack
pointer, and none writes a cell but those of variables. The destination of an instruction is
its last operand. -/
structure ObjectProgram.WellBehaved (p : ObjectProgram) : Prop where
  jumps : ∀ i ∈ p.instructions, i.opcode.jumps = true → ∀ name, .symbol name ∈ i.operands →
    ∃ offset, (name, offset) ∈ p.labels
  destinations : ∀ i ∈ p.instructions, ∀ name, i.operands.getLast? = some (.register name) →
    Register.named? name ≠ some .pc ∧ Register.named? name ≠ some .stktop
  stores : ∀ i ∈ p.instructions, i.opcode.stores = true → ∀ name, .symbol name ∈ i.operands →
    name ∈ p.variableNames

open ObjectProgram

namespace Visible

/-- The words of a program are in place, control stands at a boundary, and the cells from the stack
pointer up to the variables hold boundaries. -/
structure Tracks (p : ObjectProgram) (size : Int) (words : List Int) (v : Visible) : Prop where
  cells : (v.cells.size : Int) = size
  code : ∀ (k : Nat) (w : Int), words[k]? = some w → v.read k = w
  counter : p.Boundary v.registers.pc
  low : words.length ≤ v.registers.stktop
  high : v.registers.stktop ≤ p.variableBase size
  returns : ∀ a, v.registers.stktop ≤ a → a < p.variableBase size → p.Boundary (v.read a)

variable {p : ObjectProgram} {size : Int} {words : List Int} {codes : List (List Int)}
  {v v' : Visible}

namespace Tracks

theorem keep (h : v.Tracks p size words) (cells : v'.cells = v.cells)
    (stktop : v'.registers.stktop = v.registers.stktop) (counter : p.Boundary v'.registers.pc) :
    v'.Tracks p size words := by
  have same (a : Int) : v'.read a = v.read a := by simp only [read, cells]
  exact {
    cells := cells ▸ h.cells
    code := fun k w at_k => (same k).trans (h.code k w at_k)
    counter := counter
    low := stktop ▸ h.low
    high := stktop ▸ h.high
    returns := fun a low high => same a ▸ h.returns a (stktop ▸ low) high }

theorem write (h : v.Tracks p size words) {a : Int} (x : Int) (above : p.variableBase size ≤ a) :
    (v.write a x).Tracks p size words := by
  have low := h.low
  have high := h.high
  have kept {b : Int} (positive : 0 ≤ b) (below : b < p.variableBase size) :
      (v.write a x).read b = v.read b := read_write_ne (by omega) positive (by omega)
  exact {
    cells := (write_size a x).symm ▸ h.cells
    code := fun k w at_k => by
      have bound := (List.getElem?_eq_some_iff.mp at_k).1
      rw [kept (by omega) (by omega)]
      exact h.code k w at_k
    counter := h.counter
    low := low
    high := high
    returns := fun b lowest highest => by
      rw [write_registers] at lowest
      rw [kept (by omega) highest]
      exact h.returns b lowest highest }

theorem call (h : v.Tracks p size words) {t : Int} (target : p.Boundary t)
    (room : words.length < v.registers.stktop) (fits : p.variableBase size ≤ size) :
    (v.call t).Tracks p size words := by
  have high := h.high
  have inside : v.Inside (v.registers.stktop - 1) := ⟨by omega, by have := h.cells; omega⟩
  have kept {b : Int} (positive : 0 ≤ b) (other : v.registers.stktop - 1 ≠ b) :
      (v.call t).read b = v.read b := read_write_ne inside.1 positive other
  have pushed : (v.call t).read (v.registers.stktop - 1) = v.registers.pc := read_write_self inside
  exact {
    cells := (write_size (v := v) (v.registers.stktop - 1) v.registers.pc).symm ▸ h.cells
    code := fun k w at_k => by
      have bound := (List.getElem?_eq_some_iff.mp at_k).1
      rw [kept (by omega) (by omega)]
      exact h.code k w at_k
    counter := target
    low := by
      show _ ≤ v.registers.stktop - 1
      omega
    high := by
      show v.registers.stktop - 1 ≤ _
      omega
    returns := fun b lowest highest => by
      have lowest : v.registers.stktop - 1 ≤ b := lowest
      -- The new cell holds the address after the call, at which control stood.
      by_cases top : v.registers.stktop - 1 = b
      · rw [← top, pushed]
        exact h.counter
      · have positive := inside.1
        rw [kept (by omega) top]
        exact h.returns b (by omega) highest }

theorem ret (h : v.Tracks p size words) (below : v.registers.stktop < p.variableBase size) :
    v.ret.Tracks p size words where
  cells := h.cells
  code := h.code
  counter := h.returns v.registers.stktop (Int.le_refl _) below
  low := by
    have low := h.low
    show _ ≤ v.registers.stktop + 1
    omega
  high := by
    show v.registers.stktop + 1 ≤ _
    omega
  returns := fun a low high => by
    have low : v.registers.stktop + 1 ≤ a := low
    exact h.returns a (by omega) high

end Tracks

section Instruction

variable {i : Instruction} {values : List Int} {a : Nat}

theorem holds_of_program (cells : (v.cells.size : Int) = size)
    (code : ∀ (k : Nat) (w : Int), words[k]? = some w → v.read k = w)
    (assembled : p.Assembled size words codes) (stands : p.Stands size words i values a)
    (at_a : v.registers.pc = a) : v.Holds i.opcode values := by
  have fits := assembled.fits
  have base := variableBase_le p size
  have boundary := assembled.boundary_range stands.next
  exact holds_of_words code stands.placed at_a stands.count (by omega)

/-- The operands of an assembled instruction are in order, and the stack is left to ask for. -/
theorem permits_of_program (cells : (v.cells.size : Int) = size)
    (assembled : p.Assembled size words codes) (stands : p.Stands size words i values a)
    (push : i.opcode = .call → v.Inside (v.registers.stktop - 1))
    (pop : i.opcode = .ret → v.Inside v.registers.stktop) : v.Permits i.opcode values := by
  have fits := assembled.fits
  have base := variableBase_le p size
  refine permits_of_operands stands.count ?_ ?_ push pop
  · intro kw mem register
    obtain ⟨o, -, kind, resolves⟩ := stands.operand mem
    obtain ⟨name, r, -, -, eq⟩ := resolves.register_eq (kind.trans register)
    rw [eq]
    cases r <;> decide
  · intro kw mem memory
    obtain ⟨o, -, kind, resolves⟩ := stands.operand mem
    obtain ⟨name, -, ⟨-, above, below⟩ | ⟨offset, label, eq⟩⟩ :=
      resolves.symbol_eq (kind.trans memory)
    · exact ⟨by omega, by omega⟩
    · have range := assembled.boundary_range (assembled.labels name offset label).2
      exact ⟨by omega, by omega⟩

theorem Tracks.holds (h : v.Tracks p size words) (assembled : p.Assembled size words codes)
    (stands : p.Stands size words i values a) (at_a : v.registers.pc = a) :
    v.Holds i.opcode values :=
  holds_of_program h.cells h.code assembled stands at_a

theorem Tracks.permits (h : v.Tracks p size words) (assembled : p.Assembled size words codes)
    (stands : p.Stands size words i values a)
    (call : i.opcode = .call → words.length < v.registers.stktop)
    (ret : i.opcode = .ret → v.registers.stktop < p.variableBase size) :
    v.Permits i.opcode values := by
  have cells := h.cells
  have base := variableBase_le p size
  have low := h.low
  have high := h.high
  apply permits_of_program h.cells assembled stands
  · intro is_call
    have room := call is_call
    exact ⟨by omega, by omega⟩
  · intro is_ret
    have below := ret is_ret
    exact ⟨by omega, by omega⟩

/-- An instruction that writes a register writes the one that its last operand names. -/
theorem moved_to_named (stands : p.Stands size words i values a)
    (kind : i.opcode.kinds.getLast? = some .register) {t : Int} (last : values.getLast? = some t) :
    ∃ name r, i.operands.getLast? = some (.register name) ∧ Register.named? name = some r ∧
      ∀ (v : Visible) (x : Int), v.move t x = v.setRegister r x := by
  obtain ⟨o, ho, kind', resolves⟩ := stands.last last
  rw [kind] at kind'
  obtain ⟨name, r, rfl, found, eq⟩ := resolves.register_eq (Option.some.inj kind').symm
  exact ⟨name, r, ho, found, fun _ _ => move_of_register (eq ▸ Register.ofId?_id r)⟩

theorem target_boundary (assembled : p.Assembled size words codes) (behaved : p.WellBehaved)
    (stands : p.Stands size words i values a) (jumps : i.opcode.jumps = true) {t : Int}
    (last : values.getLast? = some t) : p.Boundary t := by
  obtain ⟨o, ho, kind, resolves⟩ := stands.last last
  have memory : o.kind = .memory := Option.some.inj (kind.symm.trans (Opcode.last_of_jumps jumps))
  obtain ⟨name, rfl, declared | ⟨offset, label, eq⟩⟩ := resolves.symbol_eq memory
  · obtain ⟨offset, label⟩ := behaved.jumps i stands.mem jumps name (List.mem_of_getLast? ho)
    exact absurd declared.1 (assembled.labels name offset label).1
  · exact eq ▸ (assembled.labels name offset label).2

/-- What is stored to a variable is stored above the program and its stack. -/
theorem stored_above (assembled : p.Assembled size words codes)
    (declared : ∀ name, .symbol name ∈ i.operands → name ∈ p.variableNames)
    (stands : p.Stands size words i values a) (stores : i.opcode.stores = true) {t : Int}
    (last : values.getLast? = some t) : p.variableBase size ≤ t := by
  obtain ⟨o, ho, kind, resolves⟩ := stands.last last
  have memory : o.kind = .memory := Option.some.inj (kind.symm.trans (Opcode.last_of_stores stores))
  obtain ⟨name, rfl, variable_ | ⟨offset, label, -⟩⟩ := resolves.symbol_eq memory
  · exact variable_.2.1
  · exact absurd (declared name (List.mem_of_getLast? ho)) (assembled.labels name offset label).1

/-- None of the outcomes of a well-behaved instruction leads off the track. -/
theorem Tracks.outcome {w : Visible} (h : v.Tracks p size words)
    (assembled : p.Assembled size words codes) (behaved : p.WellBehaved)
    (stands : p.Stands size words i values a)
    (call : i.opcode = .call → words.length < v.registers.stktop)
    (ret : i.opcode = .ret → v.registers.stktop < p.variableBase size)
    (outcome : Outcome i.opcode values v w) : w.Tracks p size words := by
  cases outcome with
  | @register v' t x kind last registers cells =>
    obtain ⟨name, r, named, found, moved⟩ := moved_to_named stands kind last
    -- Only a move to the program counter or the stack pointer could leave the track.
    obtain ⟨notCounter, notTop⟩ := behaved.destinations i stands.mem name named
    rw [moved]
    have other (q : Register) (ne : q ≠ r) : (v'.registers.set r x).get q = v.registers.get q := by
      rw [Registers.get_set, if_neg ne, registers]
    have counter : (v'.setRegister r x).registers.pc = v.registers.pc :=
      other .pc (fun same => notCounter (same ▸ found))
    have stktop : (v'.setRegister r x).registers.stktop = v.registers.stktop :=
      other .stktop (fun same => notTop (same ▸ found))
    exact h.keep cells stktop (counter ▸ h.counter)
  | @store v' t x stores last registers cells =>
    have written : v'.Tracks p size words := h.keep cells (registers ▸ rfl) (registers ▸ h.counter)
    exact written.write x
      (stored_above assembled (behaved.stores i stands.mem stores) stands stores last)
  | stay => exact h
  | jump jumps last => exact h.keep rfl rfl (target_boundary assembled behaved stands jumps last)
  | call is_call last =>
    have jumps : i.opcode.jumps = true := is_call ▸ rfl
    exact h.call (target_boundary assembled behaved stands jumps last) (call is_call)
      (variableBase_le p size)
  | ret is_ret => exact h.ret (ret is_ret)

/-- An instruction of a well-behaved program leads from boundary to boundary. -/
theorem Tracks.effect (h : v.Tracks p size words) (assembled : p.Assembled size words codes)
    (behaved : p.WellBehaved) (stands : p.Stands size words i values a) (at_a : v.registers.pc = a)
    (call : i.opcode = .call → words.length < v.registers.stktop)
    (ret : i.opcode = .ret → v.registers.stktop < p.variableBase size) :
    (Visible.effect i.opcode values (v.fetched i.opcode values)).Tracks p size words := by
  have counter : (v.fetched i.opcode values).registers.pc = a + i.opcode.size := by
    rw [← at_a]
    rfl
  have fetched : (v.fetched i.opcode values).Tracks p size words :=
    h.keep rfl rfl (counter ▸ stands.next)
  exact fetched.outcome assembled behaved stands call ret (effect_outcome _ _ _ stands.count)

end Instruction

end Visible

end BusMachine
