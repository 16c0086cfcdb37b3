import BusMachine.Proofs.Machine.AssembledRuns

/-!
How an assembled program begins. A machine of the size that it was assembled for takes it in, and
the two moves of its prologue set up an empty stack below the variables and touch nothing else.
-/
namespace BusMachine

open ObjectProgram

variable {p : ObjectProgram} {size : Int} {words : List Int} {codes : List (List Int)} {m : Machine}

/-- A new machine that holds a program, as a program sees it. -/
def Visible.loaded (size : Nat) (words : List Int) : Visible :=
  ⟨{}, false, false, (words ++ List.replicate (size - words.length) 0).toArray⟩

theorem Machine.boots_of_load (assembled : p.Assembled size words codes)
    (reachable : m.Reachable size) :
    ∃ start, m.load words = .ok start ∧ start.WellFormed size.toNat ∧ start.phase = .fetch ∧
      start.steps = 0 ∧
      start.tracing = m.tracing ∧ start.writing = m.writing ∧
      start.visible = Visible.loaded size.toNat words ∧ start.visible.Boots size words 0 := by
  have fits := assembled.fits
  have base := variableBase_le p size
  have room : words.length ≤ size.toNat := by omega
  obtain ⟨start, loaded, sound, fetching, blank, -, -, code⟩ :=
    load_of_fits reachable.sound words room
  have made := load_eq_holding reachable.sound.shape room
  cases loaded.symm.trans made
  refine ⟨_, loaded, sound.shape, fetching, rfl, rfl, rfl, rfl, ?_, code, rfl⟩
  have cells := sound.shape.main.cells
  simp only [Machine.visible_cells, ← Memory.size.eq_1, cells]
  omega

/-- The two moves of the prologue. Their trace lines hold no number but addresses, which can
be written. -/
theorem Control.prologue_steps (assembled : p.Assembled size words codes)
    (most : size < 9223372036854775808) (shape : m.WellFormed size.toNat)
    (running : m.phase ≠ .halted) (blank : m.registers = {})
    (boots : m.visible.Boots size words 0) :
    ∃ m₁ m₂, step m = .ok none m₁ ∧ step m₁ = .ok none m₂ ∧ m₂.WellFormed size.toNat ∧
      m₂.phase = .fetch ∧
      m₂.steps = m.steps + 2 ∧ m₂.tracing = m.tracing ∧ m₂.writing = m.writing ∧
      m₂.visible.Boots size words 6 ∧
      m₂.visible = { m.visible with
        registers := { m.registers with
          ir := p.variableBase size, pc := 6, stktop := p.variableBase size, stkbot :=
            p.variableBase size } } := by
  have fits := assembled.fits
  have above := variableBase_le p size
  have base : Numeral.isWritable (p.variableBase size) = true :=
    Numeral.isWritable_of_small (by omega)
  have zero : Numeral.isWritable 0 = true := Numeral.isWritable_of_small (by decide)
  have one : Numeral.isWritable 1 = true := Numeral.isWritable_of_small (by decide)
  have four : Numeral.isWritable 4 = true := Numeral.isWritable_of_small (by decide)
  have move : Numeral.isWritable Opcode.moveImmReg.id = true := Opcode.isWritable_id _
  have words_ (r : Register) : ∀ w ∈ [p.variableBase size, (r.id : Int)],
    Numeral.isWritable w = true := by
    simp [base, r.isWritable_id]
  have holds := boots.holds assembled (by decide) assembled.first
  have line : ¬m.LineTooLong := by
    refine Machine.not_lineTooLong_of_holds holds (words_ _) fun r => ?_
    rw [Visible.begun, holds.opcode, Machine.visible_registers, blank]
    cases r
    exacts [move, zero, zero, zero, zero, one, zero, zero]
  obtain ⟨m₁, stepped₁, shape₁, left₁, seen₁⟩ :=
    step_of_permitted shape running line holds (Visible.permits_moveImmReg _ _ _)
  have boots₁ : m₁.visible.Boots size words 3 := seen₁ ▸ boots.second _
  have holds₁ := boots₁.holds assembled (by decide) assembled.second
  rw [boots.effect] at seen₁
  have line₁ : ¬m₁.LineTooLong := by
    refine Machine.not_lineTooLong_of_holds holds₁ (words_ _) fun r => ?_
    rw [Visible.begun, holds₁.opcode, seen₁, Machine.visible_registers, blank]
    cases r
    exacts [move, zero, zero, zero, zero, four, zero, base]
  obtain ⟨m₂, stepped₂, shape₂, left₂, seen₂⟩ :=
    step_of_permitted shape₁ (by simp [left₁.phase]) line₁ holds₁
    (Visible.permits_moveImmReg _ _ _)
  have steps₁ := left₁.steps
  have steps₂ := left₂.steps
  rw [boots₁.effect] at seen₂
  refine ⟨m₁, m₂, stepped₁, stepped₂, shape₂,
    left₂.phase, by omega, left₂.tracing.trans left₁.tracing,
    left₂.writing.trans left₁.writing, ?_, ?_⟩
  · rw [seen₂]
    exact ⟨boots₁.cells, boots₁.code, rfl⟩
  · rw [seen₂, seen₁]
    rfl

/-- Whatever is assembled for a memory size leaves room for the variables, and can be loaded into
any machine of that size. Two steps later the stack is empty below the variables and control stands
at the first instruction; the cells behind the program are zero, and those steps have changed no
cell, no flag and no other register. -/
theorem assembled_program_sets_up {a : Assembler} {source : String}
    (assembled : (a.assemble source).2 = .ok words)
    (program : (a.assemble source).1.program = some p) :
    7 + p.variableNames.length ≤ a.memorySize ∧
      ∀ m : Machine, m.Reachable a.memorySize → ∃ start m₁ m₂, m.load words = .ok start ∧
        start.main.cells.toList = words ++ List.replicate (a.memorySize.toNat - words.length) 0 ∧
        Control.step start = .ok none m₁ ∧ Control.step m₁ = .ok none m₂ ∧ m₂.steps = 2 ∧
        m₂.registers =
          { ir := a.memorySize - p.variableNames.length
            pc := 6
            stktop := a.memorySize - p.variableNames.length
            stkbot := a.memorySize - p.variableNames.length } ∧
        m₂.flags = .cleared 2 ∧ m₂.main.cells = start.main.cells := by
  obtain ⟨d, codes, -, -, -, linked⟩ := assembled_of_assemble assembled program
  have fits : words.length ≤ a.memorySize - p.variableNames.length := linked.fits
  have length := linked.length_eq
  refine ⟨by omega, fun m reachable => ?_⟩
  obtain ⟨start, loaded, shape, fetching, steps, -, -, seen, boots⟩ :=
    Machine.boots_of_load linked reachable
  have blank : start.registers = {} := congrArg Visible.registers seen
  obtain ⟨m₁, m₂, first, second, shape₂, -, steps₂, -, -, -, seen₂⟩ :=
    Control.prologue_steps linked reachable.size_lt shape (by simp [fetching]) blank boots
  have cells : start.main.cells = (Visible.loaded a.memorySize.toNat words).cells :=
    congrArg Visible.cells seen
  refine ⟨start, m₁, m₂, loaded, ?_, first, second, by omega, ?_, ?_, congrArg Visible.cells seen₂⟩
  · simp [cells, Visible.loaded]
  · have registers : m₂.registers = _ := congrArg Visible.registers seen₂
    rw [registers, blank]
    rfl
  · have zero : m₂.flagBit .zero = false :=
      (congrArg Visible.zero seen₂).trans (congrArg Visible.zero seen)
    have negative : m₂.flagBit .negative = false :=
      (congrArg Visible.negative seen₂).trans (congrArg Visible.negative seen)
    rw [shape₂.flags_eq, zero, negative]
    rfl

/-- A program of one instruction and one variable, in a memory without a word to spare. -/
theorem inc_sets_up_without_spare :
    ((Assembler.ofSize 10).assemble "x\ninc x").2 = .ok [9, 9, 7, 9, 9, 6, 11, 9, -1] ∧
      ∃ start m₁ m₂, Machine.load { main := .blank 10 } [9, 9, 7, 9, 9, 6, 11, 9, -1] = .ok start ∧
        start.main.cells.toList = [9, 9, 7, 9, 9, 6, 11, 9, -1, 0] ∧
        Control.step start = .ok none m₁ ∧ Control.step m₁ = .ok none m₂ ∧
        m₂.registers = { ir := 9, pc := 6, stktop := 9, stkbot := 9 } := by
  have assembled : ((Assembler.ofSize 10).assemble "x\ninc x").2 =
    .ok [9, 9, 7, 9, 9, 6, 11, 9, -1] := by
    decide +kernel
  have program : ((Assembler.ofSize 10).assemble "x\ninc x").1.program =
      some ⟨["x"], [], [⟨.incMem, [.symbol "x"], 2, "inc x", 0⟩]⟩ := by decide +kernel
  obtain ⟨-, sets_up⟩ := assembled_program_sets_up assembled program
  obtain ⟨start, m₁, m₂, loaded, cells, first, second, -, registers, -, -⟩ :=
    sets_up { main := .blank 10 } (.new {} rfl)
  exact ⟨assembled, start, m₁, m₂, loaded, cells, first, second, registers⟩

end BusMachine
