import BusMachine.Proofs.Machine.Stepping

/-!
Where a fault interrupts an instruction. Addresses are latched and registers are selected before
anything that a program sees is written, so a fault leaves what fetching the words has made, but for
a stack pointer that a call has lowered.
-/
namespace BusMachine

open Control MicroProgram

namespace Register

theorem named_iff {id : Int} : Named id ↔ 0 ≤ id ∧ id < 8 := by
  constructor
  · rintro ⟨r, found⟩
    rw [← id_of_ofId? found]
    cases r <;> decide
  · intro range
    exact named_of_lt range.1 range.2

theorem ofId?_eq_none {id : Int} (unnamed : ¬Named id) : ofId? id = none :=
  Option.eq_none_iff_forall_ne_some.mpr (fun r found => unnamed ⟨r, found⟩)

end Register

namespace Visible

variable {v : Visible} {id a : Int} {f : Fault}

theorem denied?_register :
    v.denied? (.register id) = some f ↔ ¬Register.Named id ∧ f = .register id := by
  rw [denied?, Register.named_iff]
  split
  · next inside => simp [inside]
  · next outside => simp [outside, eq_comm]

theorem denied?_cell :
    v.denied? (.cell a) = some f ↔ ¬v.Inside a ∧ f = .address "MEM" a v.cells.size := by
  rw [denied?, Inside]
  split
  · next inside => simp [inside]
  · next outside => simp [outside, eq_comm]

theorem denied?_register_none : v.denied? (.register id) = none ↔ Register.Named id := by
  rw [denied?, Register.named_iff]
  split <;> simp_all

theorem denied?_cell_none : v.denied? (.cell a) = none ↔ v.Inside a := by
  rw [denied?, Inside]
  split <;> simp_all

/-- Of two needs the second is judged if the first is met. -/
theorem denied_of_two {x y : Need} (h : [x, y].findSome? v.denied? = some f) :
    v.denied? x = some f ∨ (v.denied? x = none ∧ v.denied? y = some f) := by
  rw [List.findSome?_cons] at h
  cases first : v.denied? x with
  | some g =>
    rw [first] at h
    exact .inl h
  | none =>
    rw [first, List.findSome?_singleton] at h
    exact .inr ⟨rfl, h⟩

end Visible

namespace Control

variable {α β : Type} {m m₁ : Machine} {v : Visible} {f : Fault}

/-- A fault interrupts control. A program then sees `v`, and the status memory is as before. -/
def Faults (c : Control α) (m : Machine) (f : Fault) (v : Visible) : Prop :=
  ∃ m', c m = .error (f.raised m.writing) m' ∧ m'.visible = v ∧ m'.status = m.status

theorem Faults.bind {x : Control α} (h : Faults x m f v) (next : α → Control β) :
    Faults (x >>= next) m f v := by
  obtain ⟨m', run, seen, status⟩ := h
  exact ⟨m', bind_of_error run, seen, status⟩

theorem faults_after {x : Control α} {next : α → Control β} {a : α} (run : x m = .ok a m₁)
    (status : m₁.status = m.status) (writing : m₁.writing = m.writing)
    (h : Faults (next a) m₁ f v) :
    Faults (x >>= next) m f v := by
  obtain ⟨m', run', seen, status'⟩ := h
  exact ⟨m', writing ▸ (bind_of_ok run).trans run', seen, status'.trans status⟩

theorem Faults.append {xs : List MicroOp} (h : Faults (performAll xs) m f v) (ys : List MicroOp) :
    Faults (performAll (xs ++ ys)) m f v := by
  obtain ⟨m', run, seen, status⟩ := h
  exact ⟨m', performAll_append_of_error ys run, seen, status⟩

theorem Completes.faults {xs ys : List MicroOp} (first : Completes xs m m₁)
    (status : m₁.status = m.status) (writing : m₁.writing = m.writing)
    (h : Faults (performAll ys) m₁ f v) :
    Faults (performAll (xs ++ ys)) m f v := by
  obtain ⟨m', run, seen, status'⟩ := h
  exact ⟨m', writing ▸ (performAll_append ys first).trans run, seen, status'.trans status⟩

section Bodies

variable {id a b i : Int}

theorem one_faults {op : MicroOp} (failed : m.perform op = .error (f.raised m.writing)) :
    Faults (performAll [op]) m f m.visible :=
  ⟨m, by simp only [performAll, failed], rfl, rfl⟩

theorem selected_of_unnamed (unnamed : ¬Register.Named m.demux) :
    m.selected = .error ((Fault.register m.demux).raised m.writing) :=
  Machine.selected_of_none (Register.ofId?_eq_none unnamed)

theorem give_faults (denied : m.visible.denied? (.register id) = some f) :
    Faults (performAll (giveRegister id)) m f m.visible := by
  obtain ⟨unnamed, rfl⟩ := Visible.denied?_register.mp denied
  have driven : Completes [.drive id] m { m with demux := id } := one_completes _ rfl
  exact driven.faults rfl rfl (one_faults (congrArg (Except.map _) (selected_of_unnamed unnamed)))

theorem take_faults (denied : m.visible.denied? (.register id) = some f) :
    Faults (performAll (takeRegister id)) m f m.visible := by
  obtain ⟨unnamed, rfl⟩ := Visible.denied?_register.mp denied
  have driven : Completes [.drive id] m { m with demux := id } := one_completes _ rfl
  exact driven.faults rfl rfl (one_faults (congrArg (Except.map _) (selected_of_unnamed unnamed)))

/-- A word that is put on the internal bus is refused as an address. -/
theorem latch_faults (op : MicroOp) (put : m.perform op = .ok (m.putInternal i))
    (denied : m.visible.denied? (.cell i) = some f) :
    Faults (performAll [op, .toExternal, .select .main]) m f m.visible := by
  obtain ⟨outside, rfl⟩ := Visible.denied?_cell.mp denied
  have driven : Completes [op, .toExternal] m { m with buses := ⟨i, i, m.buses.alu⟩ } :=
    .cons _ put (one_completes _ rfl)
  exact driven.faults rfl rfl (one_faults (Machine.perform_select_main_of_outside outside))

theorem select_faults (denied : m.visible.denied? (.cell i) = some f) :
    Faults (performAll (selectCell i)) m f m.visible :=
  latch_faults _ rfl denied

theorem regReg_faults (op : Alu.Operation)
    (denied : [.register a, .register b].findSome? m.visible.denied? = some f) :
    Faults (performAll (regReg op a b)) m f m.visible := by
  rcases Visible.denied_of_two denied with first | ⟨first, second⟩
  · exact (give_faults first).append _
  · obtain ⟨r, hr⟩ := Visible.denied?_register_none.mp first
    have loaded := (give_completes (m := m) hr).append (one_completes (.aluTake .first) rfl)
    exact (loaded.faults rfl rfl (give_faults second)).append _

theorem memReg_faults (op : Alu.Operation)
    (denied : [.cell i, .register a].findSome? m.visible.denied? = some f) :
    Faults (performAll (memReg op i a)) m f m.visible := by
  rcases Visible.denied_of_two denied with first | ⟨first, second⟩
  · exact (select_faults first).append _
  · have inside := Visible.denied?_cell_none.mp first
    have word := (select_completes inside).append (read_completes inside.latched_lt)
    have loaded := word.append (one_completes (.aluLoad .first) rfl)
    exact (loaded.faults rfl rfl (give_faults second)).append _

theorem regMem_faults (op : Alu.Operation)
    (denied : [.register a, .cell i].findSome? m.visible.denied? = some f) :
    Faults (performAll (regMem op a i)) m f m.visible := by
  rcases Visible.denied_of_two denied with first | ⟨first, second⟩
  · exact (give_faults first).append _
  · obtain ⟨r, hr⟩ := Visible.denied?_register_none.mp first
    have loaded := (give_completes (m := m) hr).append (one_completes (.aluTake .first) rfl)
    exact (loaded.faults rfl rfl (select_faults second)).append _

theorem moveMemReg_faults (denied : [.cell i, .register a].findSome? m.visible.denied? = some f) :
    Faults (performAll (body .moveMemReg [i, a])) m f m.visible := by
  rcases Visible.denied_of_two denied with first | ⟨first, second⟩
  · exact (select_faults first).append _
  · have inside := Visible.denied?_cell_none.mp first
    have word := (select_completes inside).append (read_completes inside.latched_lt)
    have loaded := word.append (one_completes .toInternal rfl)
    exact loaded.faults rfl rfl (take_faults second)

/-- The address is latched before the register is read. -/
theorem moveRegMem_faults (denied : [.cell i, .register a].findSome? m.visible.denied? = some f) :
    Faults (performAll (body .moveRegMem [a, i])) m f m.visible := by
  rcases Visible.denied_of_two denied with first | ⟨first, second⟩
  · exact (select_faults first).append _
  · have inside := Visible.denied?_cell_none.mp first
    exact ((select_completes inside).faults rfl rfl (give_faults second)).append _

theorem moveRegReg_faults
    (denied : [.register a, .register b].findSome? m.visible.denied? = some f) :
    Faults (performAll (body .moveRegReg [a, b])) m f m.visible := by
  rcases Visible.denied_of_two denied with first | ⟨first, second⟩
  · exact (give_faults first).append _
  · obtain ⟨r, hr⟩ := Visible.denied?_register_none.mp first
    exact (give_completes hr).faults rfl rfl (take_faults second)

theorem subtract_faults (denied : [.register a, .register b].findSome? m.visible.denied? = some f) :
    Faults (performAll (subtract a b)) m f m.visible := by
  rcases Visible.denied_of_two denied with first | ⟨first, second⟩
  · exact (give_faults first).append _
  · obtain ⟨r, hr⟩ := Visible.denied?_register_none.mp first
    have loaded := (give_completes (m := m) hr).append (one_completes (.aluTake .first) rfl)
    exact (loaded.faults rfl rfl (give_faults second)).append _

theorem call_faults (denied : m.visible.denied? (.cell (m.registers.stktop - 1)) = some f)
    (target : Int) :
    Faults (performAll (call target)) m f
      (m.visible.setRegister .stktop (m.registers.stktop - 1)) := by
  obtain ⟨m₁, lowered, seen, status, writing⟩ := lower_completes m
  have top : m₁.registers.stktop = m.registers.stktop - 1 :=
    congrArg (fun v => v.registers.stktop) seen
  have cells : m₁.visible.cells = m.main.cells := congrArg Visible.cells seen
  have denied₁ : m₁.visible.denied? (.cell m₁.registers.stktop) = some f := by
    rw [← denied, top, Visible.denied?, Visible.denied?, cells, Machine.visible_cells]
  have stopped := latch_faults (.give .stktop) rfl denied₁
  rw [← seen]
  exact (lowered.faults status writing stopped).append _

theorem ret_faults (denied : m.visible.denied? (.cell m.registers.stktop) = some f) :
    Faults (performAll ret) m f m.visible :=
  (latch_faults (.give .stktop) rfl denied).append _

theorem body_faults (c : Opcode) (operands : List Int) (count : operands.length = c.kinds.length)
    (fault : m.visible.fault? c operands = some f) :
    Faults (performAll (body c operands)) m f (m.visible.refused c) := by
  have one {x : Visible.Need} (h : [x].findSome? m.visible.denied? = some f) : m.visible.denied? x =
    some f := by
    rwa [List.findSome?_singleton] at h
  cases c with
  | addRegReg =>
    obtain ⟨_, _, rfl⟩ := List.length_eq_two.mp count
    exact regReg_faults .add fault
  | addMemReg =>
    obtain ⟨_, _, rfl⟩ := List.length_eq_two.mp count
    exact memReg_faults .add fault
  | addRegMem =>
    obtain ⟨_, _, rfl⟩ := List.length_eq_two.mp count
    exact regMem_faults .add fault
  | subRegReg =>
    obtain ⟨_, _, rfl⟩ := List.length_eq_two.mp count
    exact regReg_faults .sub fault
  | subMemReg =>
    obtain ⟨_, _, rfl⟩ := List.length_eq_two.mp count
    exact memReg_faults .sub fault
  | subRegMem =>
    obtain ⟨_, _, rfl⟩ := List.length_eq_two.mp count
    exact regMem_faults .sub fault
  | moveMemReg =>
    obtain ⟨_, _, rfl⟩ := List.length_eq_two.mp count
    exact moveMemReg_faults fault
  | moveRegMem =>
    obtain ⟨_, _, rfl⟩ := List.length_eq_two.mp count
    exact moveRegMem_faults fault
  | moveRegReg =>
    obtain ⟨_, _, rfl⟩ := List.length_eq_two.mp count
    exact moveRegReg_faults fault
  | moveImmReg =>
    obtain ⟨_, _, rfl⟩ := List.length_eq_two.mp count
    exact (one_completes (.give .ir) rfl).faults rfl rfl (take_faults (one fault))
  | incReg =>
    obtain ⟨_, rfl⟩ := List.length_eq_one_iff.mp count
    exact (give_faults (one fault)).append _
  | incMem =>
    obtain ⟨_, rfl⟩ := List.length_eq_one_iff.mp count
    exact (select_faults (one fault)).append _
  | jmp | jn | jz | jnz =>
    obtain ⟨_, rfl⟩ := List.length_eq_one_iff.mp count
    cases fault
  | jeq | jgt | jlw =>
    obtain ⟨_, _, _, rfl⟩ := List.length_eq_three.mp count
    exact (subtract_faults fault).append _
  | call =>
    obtain ⟨t, rfl⟩ := List.length_eq_one_iff.mp count
    exact call_faults (one fault) t
  | ret =>
    obtain rfl := List.length_eq_zero_iff.mp count
    exact ret_faults (one fault)

end Bodies

theorem readWord_faults (denied : m.visible.denied? (.cell m.registers.pc) = some f) :
    Faults (performAll readWord) m f m.visible :=
  (latch_faults (.give .pc) rfl denied).append _

/-- Where the memory ends before the operands do, the words that are there have been read. -/
theorem fetchOperands_faults {size : Nat} (shape : m.WellFormed size) (kinds : List OperandKind)
    (low : 0 ≤ m.registers.pc) (high : m.registers.pc ≤ m.main.size)
    (short : m.main.size < m.registers.pc + kinds.length) :
    Faults (fetchOperands kinds) m (.address "MEM" m.main.size m.main.size)
      (m.visible.passedAll kinds (m.main.cells.toList.drop m.registers.pc.toNat)) := by
  induction kinds generalizing m with
  | nil =>
    simp only [List.length_nil] at short
    omega
  | cons kind kinds ih =>
    simp only [List.length_cons, Int.natCast_add, Int.cast_ofNat_Int] at short
    by_cases inside : m.registers.pc < m.main.size
    · obtain ⟨m₁, run, seen, status⟩ := fetchOperand_of_inside (m := m) kind low inside
      have safe := fetchOperand_safe kind size m shape
      rw [run] at safe
      have counter : m₁.registers.pc = m.registers.pc + 1 := congrArg (fun v => v.registers.pc) seen
      have cells : m₁.main.cells = m.main.cells := congrArg Visible.cells seen
      have same : m₁.main.size = m.main.size := congrArg Array.size cells
      have next : m₁.registers.pc.toNat = m.registers.pc.toNat + 1 := by omega
      have bound : m.registers.pc.toNat < m.main.cells.toList.length := by
        have same : m.main.cells.toList.length = m.main.size := rfl
        omega
      have word : m.visible.read m.registers.pc = m.main.cells.toList[m.registers.pc.toNat] := by
        have cell : m.registers.pc.toNat < m.main.cells.size := bound
        simp [Visible.read, Array.getD_eq_getD_getElem?, Array.getElem?_eq_getElem cell]
      have rest := ih (m := m₁) safe.1 (by omega) (by omega) (by omega)
      rw [cells, same, next, seen, word] at rest
      rw [List.drop_eq_getElem_cons bound]
      exact faults_after run status safe.2.writing (rest.bind _)
    · have ends : m.registers.pc = m.main.size := by omega
      have denied : m.visible.denied? (.cell m.registers.pc) =
          some (.address "MEM" m.main.size m.main.size) :=
        Visible.denied?_cell.mpr ⟨fun both => inside both.2, by rw [ends]; rfl⟩
      have empty : m.main.cells.toList.drop m.registers.pc.toNat = [] := by
        apply List.drop_eq_nil_of_le
        have same : m.main.cells.toList.length = m.main.size := rfl
        omega
      rw [empty]
      exact ((readWord_faults denied).bind _).bind _

section Execution

variable {size : Nat} {c : Opcode} {operands : List Int}

theorem execute_of_short (shape : m.WellFormed size) (seen : m.visible = v.begun)
    (inside : v.Inside v.registers.pc) (opcode : v.read v.registers.pc = c.id)
    (short : v.cells.size < v.registers.pc + c.size) :
    Faults (execute c) m (.address "MEM" v.cells.size v.cells.size) (v.cutShort c) := by
  have low := inside.1
  have high := inside.2
  have counter : m.registers.pc = v.registers.pc + 1 := congrArg (fun v => v.registers.pc) seen
  have word : m.registers.ir = c.id := (congrArg (fun v => v.registers.ir) seen).trans opcode
  have cells : m.main.cells = v.cells := congrArg Visible.cells seen
  have same : m.main.size = v.cells.size := congrArg Array.size cells
  simp only [Opcode.size] at short
  have stopped := fetchOperands_faults shape c.kinds (by omega) (by omega) (by omega)
  have count : (v.cells.toList.drop (v.registers.pc + 1).toNat).length =
      v.cells.size - (v.registers.pc + 1).toNat := List.length_drop
  have ends : v.begun.registers.pc + (v.cells.size - (v.registers.pc + 1).toNat : Nat) =
    v.cells.size := by
    show v.registers.pc + 1 + _ = _
    omega
  rw [cells, same, counter, seen, Visible.passedAll_kinds _ c _ (by omega) (seen ▸ word), count,
    ends] at stopped
  exact stopped.bind _

theorem execute_of_denied (shape : m.WellFormed size) (seen : m.visible = v.begun)
    (holds : v.Holds c operands) (fault : v.fault? c operands = some f) :
    Faults (execute c) m f ((v.fetched c operands).refused c) := by
  obtain ⟨m₁, run, fetched, status⟩ := fetchOperands_of_holds seen holds
  have safe := fetchOperands_safe c.kinds size m shape
  rw [run] at safe
  have fault₁ : m₁.visible.fault? c operands = some f := fetched ▸ fault
  rw [← fetched]
  exact faults_after run status safe.2.writing (body_faults c operands holds.count fault₁)

end Execution

end Control

end BusMachine
