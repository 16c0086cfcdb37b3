import Mathlib.Data.List.Basic
import BusMachine.Proofs.Instruction.Decoding
import BusMachine.Proofs.Machine.Visible

/-!
A whole step by rules, on what a program sees: which condition stops the machine for which reason,
and what is left then. No two rules apply to one state.
-/
namespace BusMachine.Visible

/-- The first word of an instruction has been fetched. -/
def begun (v : Visible) : Visible :=
  { v with registers := { v.registers with ir := v.read v.registers.pc, pc := v.registers.pc + 1 } }

/-- The memory has ended before the words of the instruction did. -/
def cutShort (v : Visible) (c : Opcode) : Visible :=
  { v with registers := { v.registers with
      ir := held c (v.cells.toList.drop (v.registers.pc + 1).toNat)
      pc := v.cells.size } }

/-- An instruction that is not permitted does nothing, but a call has lowered the stack
pointer before. -/
def refused (v : Visible) (c : Opcode) : Visible :=
  if c = .call then v.setRegister .stktop (v.registers.stktop - 1) else v

/-- What an instruction asks for: the register of an id, or the cell at an address. -/
inductive Need where
  | register (id : Int)
  | cell (a : Int)

/-- The fault that comes of a need for something that does not exist. -/
def denied? (v : Visible) : Need → Option Fault
  | .register id => if 0 ≤ id ∧ id < 8 then none else some (.register id)
  | .cell a => if 0 ≤ a ∧ a < v.cells.size then none else some (.address "MEM" a v.cells.size)

/-- What an instruction asks for, in the order in which it asks, with the stack pointer at `top`. -/
def needs : Opcode → List Int → Int → List Need
  | .addRegReg, [a, b], _ | .subRegReg, [a, b], _ | .moveRegReg, [a, b], _ =>
      [.register a, .register b]
  | .addMemReg, [i, a], _ | .subMemReg, [i, a], _ | .moveMemReg, [i, a], _ => [.cell i, .register a]
  | .addRegMem, [a, i], _ | .subRegMem, [a, i], _ => [.register a, .cell i]
  | .moveRegMem, [a, i], _ => [.cell i, .register a]
  | .moveImmReg, [_, a], _ | .incReg, [a], _ => [.register a]
  | .incMem, [i], _ => [.cell i]
  | .jeq, [a, b, _], _ | .jlw, [a, b, _], _ => [.register a, .register b]
  | .jgt, [a, b, _], _ => [.register b, .register a]
  | .call, [_], top => [.cell (top - 1)]
  | .ret, [], top => [.cell top]
  | _, _, _ => []

/-- The fault of an instruction: that of the first of its needs that is denied. -/
def fault? (v : Visible) (c : Opcode) (operands : List Int) : Option Fault :=
  (needs c operands v.registers.stktop).findSome? v.denied?

/-- The fault of a step, and the state that it leaves. -/
inductive Faulting (v : Visible) : Fault → Visible → Prop where
  | cutShort {c : Opcode} : v.Inside v.registers.pc → v.read v.registers.pc = c.id →
      v.cells.size < v.registers.pc + c.size →
      Faulting v (.address "MEM" v.cells.size v.cells.size) (v.cutShort c)
  | refused {c : Opcode} {operands : List Int} {f : Fault} : v.Holds c operands →
      v.fault? c operands = some f → Faulting v f ((v.fetched c operands).refused c)

/-- The reason why a step stops the machine, if it does, and the state that it leaves. -/
inductive Step (v : Visible) : Option StopReason → Visible → Prop where
  | outOfRange : ¬v.Inside v.registers.pc → Step v (some .outOfRange) v
  | halt : v.Inside v.registers.pc → v.read v.registers.pc = -1 → Step v (some .halt) v.begun
  | illegal : v.Inside v.registers.pc → v.read v.registers.pc < -1 ∨ 20 < v.read v.registers.pc →
      Step v (some .illegal) v.begun
  | cutShort {c : Opcode} : v.Inside v.registers.pc → v.read v.registers.pc = c.id →
      v.cells.size < v.registers.pc + c.size → Step v (some .fault) (v.cutShort c)
  | refused {c : Opcode} {operands : List Int} : v.Holds c operands → ¬v.Permits c operands →
      Step v (some .fault) ((v.fetched c operands).refused c)
  | proceeds {c : Opcode} {operands : List Int} : v.Holds c operands → v.Permits c operands →
      Step v none (effect c operands (v.fetched c operands))

variable {v a b : Visible} {c d : Opcode} {operands others : List Int} {r q : Option StopReason}

theorem permits_iff_fault? (count : operands.length = c.kinds.length) :
    v.Permits c operands ↔ v.fault? c operands = none := by
  have permits : v.Permits c operands ↔
      (∀ kw ∈ c.kinds.zip operands, kw.1 = .register → 0 ≤ kw.2 ∧ kw.2 < 8) ∧
        ∀ a, accessed? c operands v.registers.stktop = some a → v.Inside a :=
    ⟨fun h => ⟨h.registers, h.address⟩, fun h => ⟨h.1, h.2⟩⟩
  rw [permits]
  cases c with
  | addRegReg | subRegReg | moveRegReg | addRegMem | subRegMem | moveImmReg =>
    obtain ⟨_, _, rfl⟩ := List.length_eq_two.mp count
    simp [Opcode.kinds, accessed?, fault?, needs, denied?, Inside]
  | addMemReg | subMemReg | moveMemReg | moveRegMem =>
    -- The address is judged before the register.
    obtain ⟨_, _, rfl⟩ := List.length_eq_two.mp count
    simp [Opcode.kinds, accessed?, fault?, needs, denied?, Inside, and_comm]
  | incReg | incMem | jmp | jn | jz | jnz | call =>
    obtain ⟨_, rfl⟩ := List.length_eq_one_iff.mp count
    simp [Opcode.kinds, accessed?, fault?, needs, denied?, Inside]
  | jeq | jlw =>
    obtain ⟨_, _, _, rfl⟩ := List.length_eq_three.mp count
    simp [Opcode.kinds, accessed?, fault?, needs, denied?]
  | jgt =>
    obtain ⟨_, _, _, rfl⟩ := List.length_eq_three.mp count
    simp [Opcode.kinds, accessed?, fault?, needs, denied?, and_comm]
  | ret =>
    obtain rfl := List.length_eq_zero_iff.mp count
    simp [Opcode.kinds, accessed?, fault?, needs, denied?, Inside]

theorem Holds.inside (h : v.Holds c operands) : v.Inside v.registers.pc := by
  have high := h.high
  simp only [Opcode.size] at high
  exact ⟨h.low, by omega⟩

theorem Holds.unique (h : v.Holds c operands) (k : v.Holds d others) :
    c = d ∧ operands = others := by
  have same : c = d := Opcode.eq_of_id_eq (h.opcode.symm.trans k.opcode)
  subst same
  have length : operands.length = others.length := h.count.trans k.count.symm
  refine ⟨rfl, List.ext_getElem length ?_⟩
  intro i low high
  have left := h.words i _ (List.getElem?_eq_getElem low)
  have right := k.words i _ (List.getElem?_eq_getElem high)
  exact left.symm.trans right

theorem Holds.range (h : v.Holds c operands) :
    0 ≤ v.read v.registers.pc ∧ v.read v.registers.pc ≤ 20 :=
  h.opcode ▸ c.id_range

theorem Holds.not_short (h : v.Holds c operands) (opcode : v.read v.registers.pc = d.id) :
    v.registers.pc + d.size ≤ v.cells.size := by
  have same : c = d := Opcode.eq_of_id_eq (h.opcode.symm.trans opcode)
  exact same ▸ h.high

theorem exists_holds (inside : v.Inside v.registers.pc) (opcode : v.read v.registers.pc = c.id)
    (room : v.registers.pc + c.size ≤ v.cells.size) : ∃ operands, v.Holds c operands := by
  let word (k : Nat) : Int := v.read (v.registers.pc + 1 + k)
  refine ⟨(List.range c.kinds.length).map word, by simp, inside.1, room, opcode, ?_⟩
  intro k w at_k
  obtain ⟨_, eq⟩ := List.getElem?_eq_some_iff.mp at_k
  rw [List.getElem_map, List.getElem_range] at eq
  exact eq

theorem Step.of_none (h : v.Step none a) :
    ∃ c operands, v.Holds c operands ∧ v.Permits c operands ∧
      a = effect c operands (v.fetched c operands) := by
  cases h with
  | proceeds holds permits => exact ⟨_, _, holds, permits, rfl⟩

theorem Step.of_outside (h : v.Step r a) (outside : ¬v.Inside v.registers.pc) :
    r = some .outOfRange ∧ a = v := by
  cases h with
  | outOfRange => exact ⟨rfl, rfl⟩
  | halt inside | illegal inside | cutShort inside => exact absurd inside outside
  | refused holds | proceeds holds => exact absurd holds.inside outside

theorem Step.of_haltWord (h : v.Step r a) (inside : v.Inside v.registers.pc)
    (word : v.read v.registers.pc = -1) : r = some .halt ∧ a = v.begun := by
  cases h with
  | outOfRange outside => exact absurd inside outside
  | halt => exact ⟨rfl, rfl⟩
  | illegal => omega
  | @cutShort c _ opcode =>
    have range := c.id_range
    omega
  | refused holds | proceeds holds =>
    have range := holds.range
    omega

theorem Step.of_unknown (h : v.Step r a) (inside : v.Inside v.registers.pc)
    (unknown : v.read v.registers.pc < -1 ∨ 20 < v.read v.registers.pc) :
    r = some .illegal ∧ a = v.begun := by
  cases h with
  | outOfRange outside => exact absurd inside outside
  | halt => omega
  | illegal => exact ⟨rfl, rfl⟩
  | @cutShort c _ opcode =>
    have range := c.id_range
    omega
  | refused holds | proceeds holds =>
    have range := holds.range
    omega

theorem Step.of_short (h : v.Step r a) (inside : v.Inside v.registers.pc)
    (opcode : v.read v.registers.pc = c.id) (short : v.cells.size < v.registers.pc + c.size) :
    r = some .fault ∧ a = v.cutShort c := by
  have range := c.id_range
  cases h with
  | outOfRange outside => exact absurd inside outside
  | halt | illegal => omega
  | cutShort _ opcode' =>
    obtain rfl := Opcode.eq_of_id_eq (opcode.symm.trans opcode')
    exact ⟨rfl, rfl⟩
  | refused holds | proceeds holds => exact absurd (holds.not_short opcode) (Int.not_le.mpr short)

theorem Step.of_holds (h : v.Step r a) (holds : v.Holds c operands) :
    (¬v.Permits c operands ∧ r = some .fault ∧ a = (v.fetched c operands).refused c) ∨
      (v.Permits c operands ∧ r = none ∧ a = effect c operands (v.fetched c operands)) := by
  have range := holds.range
  cases h with
  | outOfRange outside => exact absurd holds.inside outside
  | halt | illegal => omega
  | cutShort _ opcode short => exact absurd (holds.not_short opcode) (Int.not_le.mpr short)
  | refused holds' denied =>
    obtain ⟨rfl, rfl⟩ := holds.unique holds'
    exact .inl ⟨denied, rfl, rfl⟩
  | proceeds holds' permits =>
    obtain ⟨rfl, rfl⟩ := holds.unique holds'
    exact .inr ⟨permits, rfl, rfl⟩

theorem Step.unique (h : v.Step r a) (k : v.Step q b) : r = q ∧ a = b := by
  cases k with
  | outOfRange outside => exact h.of_outside outside
  | halt inside word => exact h.of_haltWord inside word
  | illegal inside unknown => exact h.of_unknown inside unknown
  | cutShort inside opcode short => exact h.of_short inside opcode short
  | refused holds denied =>
    rcases h.of_holds holds with ⟨-, same⟩ | ⟨permits, -⟩
    · exact same
    · exact absurd permits denied
  | proceeds holds permits =>
    rcases h.of_holds holds with ⟨denied, -⟩ | ⟨-, same⟩
    · exact absurd permits denied
    · exact same

/-- What a step that stops the machine leaves alone, in every register but those named. -/
structure Spares (v a : Visible) : Prop where
  registers : ∀ r, r ≠ .pc → r ≠ .ir → r ≠ .stktop → a.registers.get r = v.registers.get r
  zero : a.zero = v.zero
  negative : a.negative = v.negative
  cells : a.cells = v.cells

theorem spares_fetching (v : Visible) (word counter : Int) :
    v.Spares { v with registers := { v.registers with ir := word, pc := counter } } := by
  refine ⟨?_, rfl, rfl, rfl⟩
  intro r pc ir _
  have others : ((v.registers.set .ir word).set .pc counter).get r = v.registers.get r := by
    rw [Registers.get_set, if_neg pc, Registers.get_set, if_neg ir]
  exact others

theorem Spares.refused (h : v.Spares a) (c : Opcode) : v.Spares (a.refused c) := by
  unfold Visible.refused
  split
  · refine ⟨?_, h.zero, h.negative, h.cells⟩
    intro r pc ir stktop
    rw [← h.registers r pc ir stktop]
    exact (Registers.get_set ..).trans (if_neg stktop)
  · exact h

theorem Faulting.step {f : Fault} (h : v.Faulting f a) : v.Step (some .fault) a := by
  cases h with
  | cutShort inside opcode short => exact .cutShort inside opcode short
  | refused holds fault =>
    refine .refused holds fun permits => ?_
    rw [(permits_iff_fault? holds.count).mp permits] at fault
    cases fault

theorem Faulting.unique {f g : Fault} (h : v.Faulting f a) (k : v.Faulting g b) :
    f = g ∧ a = b := by
  refine ⟨?_, (h.step.unique k.step).2⟩
  cases h with
  | cutShort _ opcode short =>
    cases k with
    | cutShort => rfl
    | refused holds => exact absurd (holds.not_short opcode) (Int.not_le.mpr short)
  | refused holds fault =>
    cases k with
    | cutShort _ opcode short => exact absurd (holds.not_short opcode) (Int.not_le.mpr short)
    | refused holds' fault' =>
      obtain ⟨rfl, rfl⟩ := holds.unique holds'
      exact Option.some.inj (fault.symm.trans fault')

/-- No rule says that the time is up. -/
theorem Step.reason {reason : StopReason} (h : v.Step (some reason) a) : reason ≠ .timeout := by
  cases h <;> decide

theorem Step.spares {reason : StopReason} (h : v.Step (some reason) a) : v.Spares a := by
  cases h with
  | outOfRange => exact ⟨fun _ _ _ _ => rfl, rfl, rfl, rfl⟩
  | halt | illegal | cutShort => exact v.spares_fetching _ _
  | @refused c => exact (v.spares_fetching _ _).refused c

end BusMachine.Visible
