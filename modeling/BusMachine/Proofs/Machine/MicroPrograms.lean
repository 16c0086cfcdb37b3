import Mathlib.Data.List.Basic
import BusMachine.Proofs.Instruction.Decoding
import BusMachine.Proofs.Machine.Fetching

/-!
The micro-programs against the instruction set. The pieces that several micro-programs share come
first; the last theorem says that the body of every instruction has the effect that the instruction
set names.
-/
namespace BusMachine

open Control MicroProgram

namespace Register

def Named (id : Int) : Prop := ∃ r, ofId? id = some r

theorem named_of_lt {id : Int} (low : 0 ≤ id) (high : id < 8) : Named id := by
  have cases_ : id = 0 ∨ id = 1 ∨ id = 2 ∨ id = 3 ∨ id = 4 ∨ id = 5 ∨ id = 6 ∨ id = 7 := by omega
  rcases cases_ with rfl | rfl | rfl | rfl | rfl | rfl | rfl | rfl <;> exact ⟨_, rfl⟩

end Register

namespace Visible

theorem valueOf_of_register {v : Visible} {id : Int} {r : Register}
    (h : Register.ofId? id = some r) :
    v.valueOf id = v.registers.get r := by
  simp only [valueOf, h]

theorem move_of_register {v : Visible} {id x : Int} {r : Register}
    (h : Register.ofId? id = some r) :
    v.move id x = v.setRegister r x := by
  simp only [move, h]

theorem Permits.named {v : Visible} {c : Opcode} {operands : List Int} (h : v.Permits c operands)
    (n : Nat) {w : Int} (kind : c.kinds[n]? = some .register) (word : operands[n]? = some w) :
    Register.Named w := by
  have both : (c.kinds.zip operands)[n]? = some (.register, w) :=
    List.getElem?_zip_eq_some.mpr ⟨kind, word⟩
  have range := h.registers _ (List.mem_of_getElem? both) rfl
  exact Register.named_of_lt range.1 range.2

theorem Inside.latched_lt {m : Machine} {i : Int} (inside : m.visible.Inside i) :
    i.toNat < m.main.size := by
  have low := inside.1
  have high : i < m.main.size := inside.2
  omega

end Visible

/-- Of a conditional jump the bit with which control goes on behind it. -/
def Opcode.fallThrough? : Opcode → Option Bool
  | .jn | .jz | .jeq | .jgt | .jlw => some false
  | .jnz => some true
  | _ => none

namespace Machine

/-- The word of a register is on the internal bus, and its id in the demultiplexer. -/
def given (m : Machine) (id : Int) (r : Register) : Machine :=
  { m with demux := id, buses := { m.buses with internal := m.registers.get r } }

/-- The word on the internal bus is in a register, and its id in the demultiplexer. -/
def taken (m : Machine) (id : Int) (r : Register) : Machine :=
  { m with demux := id, registers := m.registers.set r m.buses.internal }

/-- The latch of main memory is at a cell, whose address is on both system buses. -/
def latched (m : Machine) (i : Int) : Machine :=
  { m with buses := ⟨i, i, m.buses.alu⟩, main := { m.main with latch := i.toNat } }

def cellRead (m : Machine) : Machine :=
  { m with buses := { m.buses with external := m.main.cells.getD m.main.latch 0 } }

def cellStored (m : Machine) : Machine :=
  { m with main := { m.main with
    cells := m.main.cells.setIfInBounds m.main.latch m.buses.external } }

/-- The flags say what the arithmetic unit has computed. -/
def flagged (m : Machine) : Machine :=
  { m with
    buses := { m.buses with internal := m.alu.second, alu := m.alu.second }
    flags := ⟨[m.alu.second = 0, m.alu.second < 0]⟩ }

end Machine

namespace Control

variable {m : Machine} {id a b i : Int} {r q : Register}

/-- The micro-operations take one machine to the other without a failure. -/
def Completes (ops : List MicroOp) (m m' : Machine) : Prop := performAll ops m = .ok () m'

theorem Completes.append {xs ys : List MicroOp} {m₁ m₂ m₃ : Machine} (first : Completes xs m₁ m₂)
    (second : Completes ys m₂ m₃) : Completes (xs ++ ys) m₁ m₃ :=
  (performAll_append ys first).trans second

theorem one_completes (op : MicroOp) {m' : Machine} (h : m.perform op = .ok m') :
    Completes [op] m m' :=
  performAll_cons [] h

theorem Completes.cons (op : MicroOp) {ops : List MicroOp} {m₁ m₂ m₃ : Machine}
    (first : m₁.perform op = .ok m₂) (rest : Completes ops m₂ m₃) : Completes (op :: ops) m₁ m₃ :=
  (performAll_cons ops first).trans rest

theorem give_completes (named : Register.ofId? id = some r) :
    Completes (giveRegister id) m (m.given id r) :=
  .cons _ rfl (one_completes _ (congrArg (Except.map _) (Machine.selected_of_some named)))

theorem take_completes (named : Register.ofId? id = some r) :
    Completes (takeRegister id) m (m.taken id r) :=
  .cons _ rfl (one_completes _ (congrArg (Except.map _) (Machine.selected_of_some named)))

/-- A word that is put on the internal bus is latched as an address. -/
theorem latch_completes (op : MicroOp) (put : m.perform op = .ok (m.putInternal i))
    (inside : m.visible.Inside i) : Completes [op, .toExternal, .select .main] m (m.latched i) :=
  .cons _ put (.cons _ rfl (one_completes _ (Machine.perform_select_main inside.1 inside.2)))

theorem select_completes (inside : m.visible.Inside i) : Completes (selectCell i) m (m.latched i) :=
  latch_completes _ rfl inside

theorem setFlags_completes (two : m.flags.bits.length = 2) : Completes setFlags m m.flagged := by
  rcases m with
    ⟨registers, ⟨bits⟩, buses, alu, demux, main, status, phase, stop, steps, tracing, trace,
    writing⟩
  match bits, two with
  | [z, n], _ => rfl

theorem read_completes (latch : m.main.latch < m.main.size) :
    Completes [.read .main] m m.cellRead :=
  one_completes _ (Machine.perform_read_main latch)

theorem store_completes (latch : m.main.latch < m.main.size) :
    Completes [.store .main] m m.cellStored :=
  one_completes _ (Machine.perform_store_main latch)

theorem operate_completes (m : Machine) (op : Alu.Operation) :
    Completes [.aluTake .second, .operate op] m
      ((m.arithmetic (·.take .second)).arithmetic (·.operate op)) := rfl

theorem regReg_completes (two : m.flags.bits.length = 2) (op : Alu.Operation)
    (first : Register.Named a) (second : Register.Named b) :
    ∃ m', Completes (regReg op a b) m m' ∧
      m'.visible =
        (m.visible.flag (Alu.result ⟨m.visible.valueOf a, m.visible.valueOf b⟩ op)).move b
        (Alu.result ⟨m.visible.valueOf a, m.visible.valueOf b⟩ op) := by
  obtain ⟨r, hr⟩ := first
  obtain ⟨q, hq⟩ := second
  have loaded := (give_completes (m := m) hr).append (one_completes (.aluTake .first) rfl)
  have computed := (loaded.append (give_completes hq)).append (operate_completes _ op)
  refine ⟨_, (computed.append (setFlags_completes two)).append (take_completes hq), ?_⟩
  rw [Visible.valueOf_of_register hr, Visible.valueOf_of_register hq, Visible.move_of_register hq]
  cases op <;> rfl

theorem memReg_completes (two : m.flags.bits.length = 2) (op : Alu.Operation)
    (inside : m.visible.Inside i) (named : Register.Named a) :
    ∃ m', Completes (memReg op i a) m m' ∧
      m'.visible = (m.visible.flag (Alu.result ⟨m.visible.read i, m.visible.valueOf a⟩ op)).move a
        (Alu.result ⟨m.visible.read i, m.visible.valueOf a⟩ op) := by
  obtain ⟨r, hr⟩ := named
  have word := (select_completes inside).append (read_completes inside.latched_lt)
  have loaded := word.append (one_completes (.aluLoad .first) rfl)
  have computed := (loaded.append (give_completes hr)).append (operate_completes _ op)
  refine ⟨_, (computed.append (setFlags_completes two)).append (take_completes hr), ?_⟩
  rw [Visible.valueOf_of_register hr, Visible.move_of_register hr]
  cases op <;> rfl

theorem regMem_completes (two : m.flags.bits.length = 2) (op : Alu.Operation)
    (named : Register.Named a) (inside : m.visible.Inside i) :
    ∃ m', Completes (regMem op a i) m m' ∧
      m'.visible = (m.visible.flag (Alu.result ⟨m.visible.valueOf a, m.visible.read i⟩ op)).write i
        (Alu.result ⟨m.visible.valueOf a, m.visible.read i⟩ op) := by
  obtain ⟨r, hr⟩ := named
  have loaded := (give_completes (m := m) hr).append (one_completes (.aluTake .first) rfl)
  have word := (loaded.append (select_completes inside)).append (read_completes inside.latched_lt)
  have both := word.append (one_completes (.aluLoad .second) rfl)
  have computed := both.append (one_completes (.operate op) rfl)
  have result :=
    (computed.append (setFlags_completes two)).append (one_completes (.aluDrive .second) rfl)
  refine ⟨_, result.append (store_completes inside.latched_lt), ?_⟩
  rw [Visible.valueOf_of_register hr]
  cases op <;> rfl

theorem incReg_completes (two : m.flags.bits.length = 2) (named : Register.Named a) :
    ∃ m', Completes (body .incReg [a]) m m' ∧
      m'.visible = (m.visible.flag (m.visible.valueOf a + 1)).move a (m.visible.valueOf a + 1) := by
  obtain ⟨r, hr⟩ := named
  have computed := (give_completes (m := m) hr).append (operate_completes _ .inc)
  refine ⟨_, (computed.append (setFlags_completes two)).append (take_completes hr), ?_⟩
  rw [Visible.valueOf_of_register hr, Visible.move_of_register hr]
  rfl

theorem incMem_completes (two : m.flags.bits.length = 2) (inside : m.visible.Inside i) :
    ∃ m', Completes (body .incMem [i]) m m' ∧
      m'.visible = (m.visible.flag (m.visible.read i + 1)).write i (m.visible.read i + 1) := by
  have word := (select_completes inside).append (read_completes inside.latched_lt)
  have loaded := word.append (one_completes (.aluLoad .second) rfl)
  have computed := loaded.append (one_completes (.operate .inc) rfl)
  have result :=
    (computed.append (setFlags_completes two)).append (one_completes (.aluDrive .second) rfl)
  exact ⟨_, result.append (store_completes inside.latched_lt), rfl⟩

theorem moveMemReg_completes (inside : m.visible.Inside i) (named : Register.Named a) :
    ∃ m', Completes (body .moveMemReg [i, a]) m m' ∧
      m'.visible = m.visible.move a (m.visible.read i) := by
  obtain ⟨r, hr⟩ := named
  have word := (select_completes inside).append (read_completes inside.latched_lt)
  have loaded := word.append (one_completes .toInternal rfl)
  refine ⟨_, loaded.append (take_completes hr), ?_⟩
  rw [Visible.move_of_register hr]
  rfl

theorem moveRegMem_completes (named : Register.Named a) (inside : m.visible.Inside i) :
    ∃ m', Completes (body .moveRegMem [a, i]) m m' ∧
      m'.visible = m.visible.write i (m.visible.valueOf a) := by
  obtain ⟨r, hr⟩ := named
  have loaded := (select_completes inside).append (give_completes hr)
  have driven := loaded.append (one_completes .toExternal rfl)
  refine ⟨_, driven.append (store_completes inside.latched_lt), ?_⟩
  rw [Visible.valueOf_of_register hr]
  rfl

theorem moveRegReg_completes (first : Register.Named a) (second : Register.Named b) :
    ∃ m', Completes (body .moveRegReg [a, b]) m m' ∧
      m'.visible = m.visible.move b (m.visible.valueOf a) := by
  obtain ⟨r, hr⟩ := first
  obtain ⟨q, hq⟩ := second
  refine ⟨_, (give_completes hr).append (take_completes hq), ?_⟩
  rw [Visible.valueOf_of_register hr, Visible.move_of_register hq]
  rfl

theorem moveImmReg_completes (w : Int) (named : Register.Named a) :
    ∃ m', Completes (body .moveImmReg [w, a]) m m' ∧
      m'.visible = m.visible.move a m.registers.ir := by
  obtain ⟨r, hr⟩ := named
  refine ⟨_, .cons _ rfl (take_completes hr), ?_⟩
  rw [Visible.move_of_register hr]
  rfl

theorem subtract_completes (first : Register.Named a) (second : Register.Named b) :
    ∃ m', Completes (subtract a b) m m' ∧ m'.visible = m.visible ∧ m'.flags = m.flags ∧
      m'.status = m.status ∧ m'.alu.second = m.visible.valueOf a - m.visible.valueOf b := by
  obtain ⟨r, hr⟩ := first
  obtain ⟨q, hq⟩ := second
  have loaded := (give_completes (m := m) hr).append (one_completes (.aluTake .first) rfl)
  refine ⟨_, (loaded.append (give_completes hq)).append (operate_completes _ .sub), rfl, rfl, rfl,
    ?_⟩
  rw [Visible.valueOf_of_register hr, Visible.valueOf_of_register hq]
  rfl

/-- Operations that leave a bit on the internal bus, and nothing that a program sees. -/
def Places (ops : List MicroOp) (bit : Bool) (m : Machine) : Prop :=
  ∃ m', Completes ops m m' ∧ m'.visible = m.visible ∧ m'.status = m.status ∧
    m'.buses.internal = bitWord bit

theorem giveFlag_places (two : m.flags.bits.length = 2) (f : Flag) :
    Places [.giveFlag f] (m.flagBit f) m := by
  rcases m with
    ⟨registers, ⟨bits⟩, buses, alu, demux, main, status, phase, stop, steps, tracing, trace,
    writing⟩
  match bits, two with
  | [z, n], _ => cases f <;> exact ⟨_, one_completes _ rfl, rfl, rfl, rfl⟩

theorem judgeResult_places (m : Machine) (f : Flag) :
    Places (judgeResult f) (f.holds m.alu.second) m :=
  ⟨_, .cons _ rfl (one_completes _ rfl), rfl, rfl, rfl⟩

/-- The cells of the status memory in which a branch keeps its continuations. -/
def continuations (pc target : Int) (fallThrough : Bool) : Array Int :=
  if fallThrough then #[target, pc] else #[pc, target]

/-- The continuations of a branch are stored, and the cell is still to be chosen. -/
def choice (target : Int) (fallThrough : Bool) : List MicroOp :=
  [.place (bitWord fallThrough), .select .status, .give .pc, .store .status,
    .place (bitWord !fallThrough), .select .status, .place target, .store .status]

theorem choice_completes (cells : m.status.size = 2) (target : Int) (fallThrough : Bool) :
    ∃ m', Completes (choice target fallThrough) m m' ∧ m'.visible = m.visible ∧ m'.flags = m.flags ∧
      m'.alu = m.alu ∧ m'.status.cells = continuations m.registers.pc target fallThrough := by
  rcases m with
    ⟨registers, flags, buses, alu, demux, main, ⟨⟨entries⟩, latch⟩, phase, stop, steps, tracing,
    trace, writing⟩
  match entries, cells with
  | [x, y], _ => cases fallThrough <;> exact ⟨_, rfl, rfl, rfl, rfl, rfl⟩

theorem pick_completes {bit fallThrough : Bool} {target pc : Int}
    (chosen : m.buses.internal = bitWord bit)
    (cells : m.status.cells = continuations pc target fallThrough) :
    ∃ m', Completes [.select .status, .read .status, .take .pc] m m' ∧
      m'.visible = m.visible.setRegister .pc (if bit = fallThrough then pc else target) ∧
      m'.status.cells = m.status.cells := by
  rcases m with
    ⟨registers, flags, ⟨internal, external, arith⟩, alu, demux, main, ⟨entries, latch⟩, phase, stop,
      steps,
      tracing, trace, writing⟩
  simp only at chosen cells
  subst chosen cells
  cases bit <;> cases fallThrough <;> exact ⟨_, rfl, rfl, rfl⟩

theorem branch_completes (cells : m.status.size = 2) {placeBit : List MicroOp} {bit : Bool}
    (places : ∀ m' : Machine, m'.visible = m.visible → m'.flags = m.flags → m'.alu = m.alu →
      Places placeBit bit m') (target : Int) (fallThrough : Bool) :
    ∃ m', Completes (branch placeBit target fallThrough) m m' ∧
      m'.visible = m.visible.jumpIf (bit ≠ fallThrough) target ∧
      m'.status.cells = continuations m.registers.pc target fallThrough := by
  obtain ⟨m₁, stored, seen, flags, alu, entries⟩ := choice_completes cells target fallThrough
  obtain ⟨m₂, placed, seen', status, chosen⟩ := places m₁ seen flags alu
  obtain ⟨m₃, picked, seen'', kept⟩ := pick_completes chosen (status ▸ entries)
  refine ⟨m₃, (stored.append placed).append picked, ?_, kept.trans (status ▸ entries)⟩
  rw [seen'', seen', seen]
  by_cases fall : bit = fallThrough
  · simp only [Visible.jumpIf, fall, ne_eq, not_true_eq_false, if_false, if_true]
    rfl
  · simp only [Visible.jumpIf, fall, ne_eq, not_false_eq_true, if_false, if_true]

/-- The first half of a call: the stack pointer goes down by one. -/
def lower : List MicroOp :=
  [.give .stktop, .aluTake .first, .aluTake .second, .operate .inc, .operate .sub, .operate .add,
    .aluGive .second, .take .stktop]

theorem lower_completes (m : Machine) :
    ∃ m', Completes lower m m' ∧
      m'.visible = m.visible.setRegister .stktop (m.registers.stktop - 1) ∧ m'.status = m.status ∧
      m'.writing = m.writing := by
  -- The arithmetic unit has no decrement.
  have down : m.registers.stktop + (m.registers.stktop - (m.registers.stktop + 1)) =
      m.registers.stktop - 1 := by omega
  rw [← down]
  exact ⟨_, rfl, rfl, rfl, rfl⟩

theorem call_completes (inside : m.visible.Inside (m.registers.stktop - 1)) (target : Int) :
    ∃ m', Completes (call target) m m' ∧ m'.visible = m.visible.call target := by
  obtain ⟨m₁, lowered, seen, -⟩ := lower_completes m
  have top : m₁.registers.stktop = m.registers.stktop - 1 :=
    congrArg (fun v => v.registers.stktop) seen
  have cells : m₁.main.cells = m.main.cells := congrArg Visible.cells seen
  have at_ : m₁.visible.Inside m₁.registers.stktop := by
    rw [top, seen]
    exact inside
  have selected := latch_completes (.give .stktop) rfl at_
  have kept := selected.append (.cons (.give .pc) rfl (one_completes .toExternal rfl))
  have stored := kept.append (store_completes at_.latched_lt)
  have jumped := stored.append (.cons (.place target) rfl (one_completes (.take .pc) rfl))
  refine ⟨_, lowered.append jumped, ?_⟩
  have counter : m₁.registers.pc = m.registers.pc := congrArg (fun v => v.registers.pc) seen
  show (m₁.visible.write m₁.registers.stktop m₁.registers.pc).setRegister .pc target = _
  rw [seen, top, counter]
  rfl

theorem ret_completes (inside : m.visible.Inside m.registers.stktop) :
    ∃ m', Completes ret m m' ∧ m'.visible = m.visible.ret := by
  have selected := latch_completes (.give .stktop) rfl inside
  have word := selected.append (read_completes inside.latched_lt)
  have jumped := word.append (.cons .toInternal rfl (one_completes (.take .pc) rfl))
  exact ⟨_, jumped.append (show Completes [.give .stktop, .aluTake .second, .operate .inc,
    .aluGive .second, .take .stktop] _ _ from rfl), rfl⟩

theorem flagJump_completes (two : m.flags.bits.length = 2) (cells : m.status.size = 2) {f : Flag}
    {fallThrough : Bool} {taken : Prop} [Decidable taken]
    (when_ : taken ↔ m.flagBit f ≠ fallThrough) (target : Int) :
    ∃ m', Completes (branch [.giveFlag f] target fallThrough) m m' ∧
      m'.visible = m.visible.jumpIf taken target ∧
      m'.status.cells = continuations m.registers.pc target fallThrough := by
  rw [Visible.jumpIf_congr when_]
  refine branch_completes cells ?_ target fallThrough
  intro m' _ same _
  have bit : m'.flagBit f = m.flagBit f := by simp only [Machine.flagBit, same]
  exact bit ▸ giveFlag_places (same ▸ two) f

/-- A comparing jump is taken when the flag would hold of the difference. -/
theorem compareJump_completes (cells : m.status.size = 2) (first : Register.Named a)
    (second : Register.Named b) {f : Flag} {taken : Prop} [Decidable taken]
    (when_ : taken ↔ f.holds (m.visible.valueOf a - m.visible.valueOf b) = true) (target : Int) :
    ∃ m', Completes (subtract a b ++ branch (judgeResult f) target false) m m' ∧
      m'.visible = m.visible.jumpIf taken target ∧
      m'.status.cells = continuations m.registers.pc target false := by
  obtain ⟨m₁, compared, seen, _, status, difference⟩ := subtract_completes (m := m) first second
  have places : ∀ m' : Machine, m'.visible = m₁.visible → m'.flags = m₁.flags → m'.alu = m₁.alu →
      Places (judgeResult f) (f.holds m₁.alu.second) m' :=
    fun m' _ _ same => same ▸ judgeResult_places m' f
  obtain ⟨m₂, jumped, seen', kept⟩ := branch_completes (status ▸ cells) places target false
  have counter : m₁.registers = m.registers := congrArg Visible.registers seen
  refine ⟨m₂, compared.append jumped, ?_, counter ▸ kept⟩
  rw [seen', seen, difference, Visible.jumpIf_congr when_]
  simp only [ne_eq, Bool.not_eq_false]

/-- A conditional jump keeps the address after it and its target until one of them is chosen. -/
theorem conditional_completes {size : Nat} (shape : m.WellFormed size) {c : Opcode}
    {fallThrough : Bool} (conditional : c.fallThrough? = some fallThrough) {operands : List Int}
    (count : operands.length = c.kinds.length) (permits : m.visible.Permits c operands) :
    ∃ m' target, Completes (body c operands) m m' ∧
      m'.visible = Visible.effect c operands m.visible ∧
      operands.getLast? = some target ∧
      m'.status.cells = continuations m.registers.pc target fallThrough := by
  have two := shape.flags
  have cells := shape.status.cells
  cases c with
  | jn =>
    obtain ⟨t, rfl⟩ := List.length_eq_one_iff.mp count
    cases conditional
    have when_ : m.visible.negative = true ↔ m.flagBit .negative ≠ false := by simp
    obtain ⟨m', done, seen, kept⟩ := flagJump_completes two cells when_ t
    exact ⟨m', t, done, seen, rfl, kept⟩
  | jz =>
    obtain ⟨t, rfl⟩ := List.length_eq_one_iff.mp count
    cases conditional
    have when_ : m.visible.zero = true ↔ m.flagBit .zero ≠ false := by simp
    obtain ⟨m', done, seen, kept⟩ := flagJump_completes two cells when_ t
    exact ⟨m', t, done, seen, rfl, kept⟩
  | jnz =>
    obtain ⟨t, rfl⟩ := List.length_eq_one_iff.mp count
    cases conditional
    have when_ : (!m.visible.zero) = true ↔ m.flagBit .zero ≠ true := by simp
    obtain ⟨m', done, seen, kept⟩ := flagJump_completes two cells when_ t
    exact ⟨m', t, done, seen, rfl, kept⟩
  | jeq =>
    obtain ⟨a, b, t, rfl⟩ := List.length_eq_three.mp count
    cases conditional
    have when_ : m.visible.valueOf a = m.visible.valueOf b ↔
        Flag.zero.holds (m.visible.valueOf a - m.visible.valueOf b) = true := by
      simp only [Flag.holds, beq_iff_eq]
      omega
    obtain ⟨m', done, seen, kept⟩ :=
      compareJump_completes cells (permits.named 0 rfl rfl) (permits.named 1 rfl rfl) when_ t
    exact ⟨m', t, done, seen, rfl, kept⟩
  | jgt =>
    obtain ⟨a, b, t, rfl⟩ := List.length_eq_three.mp count
    cases conditional
    have when_ : m.visible.valueOf a > m.visible.valueOf b ↔
        Flag.negative.holds (m.visible.valueOf b - m.visible.valueOf a) = true := by
      simp only [Flag.holds, decide_eq_true_eq]
      omega
    obtain ⟨m', done, seen, kept⟩ :=
      compareJump_completes cells (permits.named 1 rfl rfl) (permits.named 0 rfl rfl) when_ t
    exact ⟨m', t, done, seen, rfl, kept⟩
  | jlw =>
    obtain ⟨a, b, t, rfl⟩ := List.length_eq_three.mp count
    cases conditional
    have when_ : m.visible.valueOf a < m.visible.valueOf b ↔
        Flag.negative.holds (m.visible.valueOf a - m.visible.valueOf b) = true := by
      simp only [Flag.holds, decide_eq_true_eq]
      omega
    obtain ⟨m', done, seen, kept⟩ :=
      compareJump_completes cells (permits.named 0 rfl rfl) (permits.named 1 rfl rfl) when_ t
    exact ⟨m', t, done, seen, rfl, kept⟩
  | _ => cases conditional

theorem body_completes {size : Nat} (shape : m.WellFormed size) (c : Opcode) (operands : List Int)
    (count : operands.length = c.kinds.length) (permits : m.visible.Permits c operands)
    (held : m.registers.ir = Visible.held c operands) :
    ∃ m', Completes (body c operands) m m' ∧ m'.visible = Visible.effect c operands m.visible := by
  have two := shape.flags
  have inside := permits.address
  cases conditional : c.fallThrough? with
  | some fallThrough =>
    obtain ⟨m', _, done, seen, -⟩ := conditional_completes shape conditional count permits
    exact ⟨m', done, seen⟩
  | none =>
    cases c with
    | addRegReg =>
      match operands, count with
      | [_, _], _ =>
        exact regReg_completes two .add (permits.named 0 rfl rfl) (permits.named 1 rfl rfl)
    | addMemReg =>
      match operands, count with
      | [_, _], _ => exact memReg_completes two .add (inside _ rfl) (permits.named 1 rfl rfl)
    | addRegMem =>
      match operands, count with
      | [_, _], _ => exact regMem_completes two .add (permits.named 0 rfl rfl) (inside _ rfl)
    | subRegReg =>
      match operands, count with
      | [_, _], _ =>
        exact regReg_completes two .sub (permits.named 0 rfl rfl) (permits.named 1 rfl rfl)
    | subMemReg =>
      match operands, count with
      | [_, _], _ => exact memReg_completes two .sub (inside _ rfl) (permits.named 1 rfl rfl)
    | subRegMem =>
      match operands, count with
      | [_, _], _ => exact regMem_completes two .sub (permits.named 0 rfl rfl) (inside _ rfl)
    | moveMemReg =>
      match operands, count with
      | [_, _], _ => exact moveMemReg_completes (inside _ rfl) (permits.named 1 rfl rfl)
    | moveRegMem =>
      match operands, count with
      | [_, _], _ => exact moveRegMem_completes (permits.named 0 rfl rfl) (inside _ rfl)
    | moveRegReg =>
      match operands, count with
      | [_, _], _ => exact moveRegReg_completes (permits.named 0 rfl rfl) (permits.named 1 rfl rfl)
    | moveImmReg =>
      match operands, count with
      | [w, a], _ =>
        obtain ⟨m', done, seen⟩ := moveImmReg_completes (m := m) w (permits.named 1 rfl rfl)
        exact ⟨m', done, seen.trans (congrArg (m.visible.move a) held)⟩
    | incReg =>
      match operands, count with
      | [_], _ => exact incReg_completes two (permits.named 0 rfl rfl)
    | incMem =>
      match operands, count with
      | [_], _ => exact incMem_completes two (inside _ rfl)
    | jmp =>
      match operands, count with
      | [_], _ => exact ⟨_, rfl, rfl⟩
    | jn | jz | jnz | jeq | jgt | jlw => cases conditional
    | call =>
      match operands, count with
      | [t], _ => exact call_completes (inside _ rfl) t
    | ret =>
      match operands, count with
      | [], _ => exact ret_completes (inside _ rfl)

end Control

end BusMachine
