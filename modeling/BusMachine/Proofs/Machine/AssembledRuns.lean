import BusMachine.Proofs.Machine.Loading
import BusMachine.Proofs.Machine.Reachable
import BusMachine.Proofs.Machine.Tracking

/-!
Runs of assembled programs. As long as calls find room on the stack and returns find an address
there, a well-behaved program ends at its halt word or not at all.
-/
namespace BusMachine

open ObjectProgram

/-- At a call the stack has a cell to spare above the program, and at a return it is not empty. -/
structure Machine.Disciplined (length : Nat) (base : Int) (m : Machine) : Prop where
  call : m.visible.read m.registers.pc = Opcode.call.id → length < m.registers.stktop
  ret : m.visible.read m.registers.pc = Opcode.ret.id → m.registers.stktop < base

/-- That many steps, none of which stopped the machine, lead from `start` to a machine; each of them
began with a machine as `ok` says. -/
inductive Control.Passes (ok : Machine → Prop) (start : Machine) : Nat → Machine → Prop where
  | start : Passes ok start 0 start
  | step {n : Nat} {m m' : Machine} : Passes ok start n m → ok m → Control.step m = .ok none m' →
      Passes ok start (n + 1) m'

variable {p : ObjectProgram} {size : Int} {words : List Int} {codes : List (List Int)} {m : Machine}

/-- No line of the trace is too long: there is no trace, or every number can be written. -/
def Machine.Unhindered (m : Machine) : Prop := m.tracing = false ∨ m.writing = .total

theorem Machine.Unhindered.line (h : m.Unhindered) : ¬m.LineTooLong := by
  rcases h with untraced | total
  · exact not_lineTooLong_of_untraced untraced
  · exact not_lineTooLong_of_total total

theorem Machine.Unhindered.stepped {m' : Machine} {reason : Option StopReason} (h : m.Unhindered)
    (left : m.Stepped reason m') : m'.Unhindered := by
  rw [Unhindered, left.tracing, left.writing]
  exact h

theorem Machine.load_of_fits {n : Nat} (sound : m.Sound n) (words : List Int)
    (fits : words.length ≤ n) :
    ∃ start, m.load words = .ok start ∧ start.Sound n ∧ start.phase = .fetch ∧
      start.registers = {} ∧
      start.tracing = m.tracing ∧ start.writing = m.writing ∧
      ∀ (k : Nat) (w : Int), words[k]? = some w → start.visible.read k = w := by
  have made := load_eq_holding sound.shape fits
  refine ⟨_, made, (Machine.load_sound sound made).1, rfl, rfl, rfl, rfl, ?_⟩
  intro k w at_k
  have bound := (List.getElem?_eq_some_iff.mp at_k).1
  simp only [holding, Visible.read, Machine.visible_cells, Int.toNat_natCast,
    Array.getD_eq_getD_getElem?, List.getElem?_toArray, List.getElem?_append_left bound, at_k,
      Option.getD_some]

namespace Visible

/-- The program is in place, and control stands at that address of the prologue. -/
structure Boots (size : Int) (words : List Int) (a : Nat) (v : Visible) : Prop where
  cells : (v.cells.size : Int) = size
  code : ∀ (k : Nat) (w : Int), words[k]? = some w → v.read k = w
  counter : v.registers.pc = a

variable {v : Visible} {a : Nat} {r : Register}

theorem Boots.holds (h : v.Boots size words a) (assembled : p.Assembled size words codes)
    (early : a ≤ 3)
    (placed : ∀ (k : Nat) (w : Int),
      [(Opcode.moveImmReg.id : Int), p.variableBase size, r.id][k]? = some w →
        words[a + k]? = some w) :
    v.Holds .moveImmReg [p.variableBase size, r.id] := by
  have fits := assembled.fits
  have length := assembled.length_eq
  have base := variableBase_le p size
  have cells := h.cells
  have three : (Opcode.moveImmReg.size : Int) = 3 := rfl
  exact holds_of_words h.code placed h.counter rfl (by omega)

theorem permits_moveImmReg (v : Visible) (x : Int) (r : Register) :
    v.Permits .moveImmReg [x, r.id] := by
  constructor
  · intro kw mem register
    rcases List.mem_cons.mp mem with rfl | mem
    · cases register
    · cases List.mem_singleton.mp mem
      cases r <;> decide
  · intro b accessed
    cases accessed

theorem Boots.effect (h : v.Boots size words a) (r : Register) (base : Int) :
    Visible.effect .moveImmReg [base, r.id] (v.fetched .moveImmReg [base, r.id]) =
      { v with
        registers := ({ v.registers with ir := base, pc := a + 3 } : Registers).set r base } := by
  have moved : Visible.effect .moveImmReg [base, r.id] (v.fetched .moveImmReg [base, r.id]) =
      (v.fetched .moveImmReg [base, r.id]).move r.id base := rfl
  rw [moved, move_of_register (Register.ofId?_id r), ← h.counter]
  rfl

theorem Boots.second (h : v.Boots size words 0) (base : Int) :
    (Visible.effect .moveImmReg [base, Register.stkbot.id]
      (v.fetched .moveImmReg [base, Register.stkbot.id])).Boots size words 3 := by
  rw [h.effect]
  exact ⟨h.cells, h.code, rfl⟩

theorem Boots.program (h : v.Boots size words 3) (assembled : p.Assembled size words codes) :
    (Visible.effect .moveImmReg [p.variableBase size, Register.stktop.id]
      (v.fetched .moveImmReg [p.variableBase size, Register.stktop.id])).Tracks p size words := by
  rw [h.effect]
  exact {
    cells := h.cells
    code := h.code
    counter := ⟨[], p.instructions, rfl, rfl⟩
    low := assembled.fits
    high := Int.le_refl _
    returns := fun a low high => absurd high (Int.not_lt.mpr low) }

end Visible

/-- A machine that runs an assembled program: it is in the prologue or on the track of the
program. -/
structure Machine.Runs (p : ObjectProgram) (size : Int) (words : List Int)
    (m : Machine) : Prop where
  shape : m.WellFormed size.toNat
  running : m.phase ≠ .halted
  unhindered : m.Unhindered
  place : m.visible.Boots size words 0 ∨ m.visible.Boots size words 3 ∨
    m.visible.Tracks p size words

namespace Machine.Runs

theorem code (h : m.Runs p size words) (assembled : p.Assembled size words codes) :
    m.main.cells.toList.take words.length = words := by
  have fits := assembled.fits
  have base := variableBase_le p size
  have placed : (m.visible.cells.size : Int) = size ∧
      ∀ (k : Nat) (w : Int), words[k]? = some w → m.visible.read k = w := by
    rcases h.place with boots | boots | tracks
    · exact ⟨boots.cells, boots.code⟩
    · exact ⟨boots.cells, boots.code⟩
    · exact ⟨tracks.cells, tracks.code⟩
  have cells : (m.main.cells.size : Int) = size := placed.1
  apply List.ext_getElem?
  intro k
  rw [List.getElem?_take]
  split
  · next bound =>
    have inside : k < m.main.cells.size := by omega
    have word := placed.2 k words[k] (List.getElem?_eq_getElem bound)
    simp only [Visible.read, Machine.visible_cells, Int.toNat_natCast, Array.getD_eq_getD_getElem?,
      Array.getElem?_eq_getElem inside, Option.getD_some] at word
    rw [List.getElem?_eq_getElem bound, Array.getElem?_toList, Array.getElem?_eq_getElem inside,
      word]
  · next beyond => exact (List.getElem?_eq_none (Nat.not_lt.mp beyond)).symm

theorem counter (h : m.Runs p size words) (assembled : p.Assembled size words codes) :
    m.registers.pc = 0 ∨ m.registers.pc = 3 ∨
      (∃ i ∈ p.instructions, m.registers.pc = 6 + i.offset) ∨
      m.registers.pc = words.length - 1 := by
  rcases h.place with boots | boots | tracks
  · exact .inl boots.counter
  · exact .inr (.inl boots.counter)
  · exact .inr (.inr (assembled.boundary_eq tracks.counter))

theorem permitted (h : m.Runs p size words) {c : Opcode} {operands : List Int}
    (holds : m.visible.Holds c operands) (permits : m.visible.Permits c operands)
    (place : ∀ v, v = Visible.effect c operands (m.visible.fetched c operands) →
      v.Boots size words 0 ∨ v.Boots size words 3 ∨ v.Tracks p size words) :
    ∃ m', Control.step m = .ok none m' ∧ m'.Runs p size words := by
  obtain ⟨m', stepped, shape, left, seen⟩ :=
    Control.step_of_permitted h.shape h.running h.unhindered.line holds permits
  exact ⟨m', stepped, shape, by simp [left.phase], h.unhindered.stepped left, place _ seen⟩

theorem step (h : m.Runs p size words) (assembled : p.Assembled size words codes)
    (behaved : p.WellBehaved) (disciplined : m.Disciplined words.length (p.variableBase size)) :
    (∃ m', Control.step m = .ok none m' ∧ m'.Runs p size words) ∨
      ∃ m', Control.step m = .ok (some .halt) m' ∧ m'.main.cells = m.main.cells := by
  rcases h.place with boots | boots | tracks
  · have holds := boots.holds assembled (by decide) assembled.first
    exact .inl (h.permitted holds (Visible.permits_moveImmReg _ _ _)
      (fun v eq => .inr (.inl (eq ▸ boots.second _))))
  · have holds := boots.holds assembled (by decide) assembled.second
    exact .inl (h.permitted holds (Visible.permits_moveImmReg _ _ _)
      (fun v eq => .inr (.inr (eq ▸ boots.program assembled))))
  · obtain ⟨n, at_n, halting | ⟨i, values, stands⟩⟩ := assembled.boundary_cases tracks.counter
    · have range := assembled.boundary_range tracks.counter
      have fits := assembled.fits
      have base := variableBase_le p size
      have cells := tracks.cells
      have at_n : m.registers.pc = n := at_n
      have word : m.visible.read m.registers.pc = haltWord := at_n ▸ tracks.code n _ halting
      have inside : m.visible.Inside m.registers.pc := by
        have same : (m.visible.cells.size : Int) = size := cells
        have below : m.registers.pc < words.length := range.2
        exact ⟨by omega, by omega⟩
      obtain ⟨m', stepped, -, -, seen⟩ :=
        Control.step_of_haltWord h.shape h.running h.unhindered.line inside word
      exact .inr ⟨m', stepped, congrArg Visible.cells seen⟩
    · have holds := tracks.holds assembled stands at_n
      have call : i.opcode = .call → words.length < m.registers.stktop :=
        fun is_call => disciplined.call (is_call ▸ holds.opcode)
      have ret : i.opcode = .ret → m.registers.stktop < p.variableBase size :=
        fun is_ret => disciplined.ret (is_ret ▸ holds.opcode)
      have permits := tracks.permits assembled stands call ret
      exact .inl (h.permitted holds permits
        (fun v eq => .inr (.inr (eq ▸ tracks.effect assembled behaved stands at_n call ret))))

end Machine.Runs

namespace Control

theorem Passes.runs {start : Machine} {n : Nat} (assembled : p.Assembled size words codes)
    (behaved : p.WellBehaved) (begins : start.Runs p size words)
    (h : Passes (Machine.Disciplined words.length (p.variableBase size)) start n m) :
    m.Runs p size words := by
  -- `Runs` is the invariant; the steps of a passage go on, so none of them meets the halt word.
  induction h with
  | start => exact begins
  | step _ disciplined stepped ih =>
    rcases ih.step assembled behaved disciplined with ⟨m', stepped', runs⟩ | ⟨m', stepped', -⟩
    · rw [stepped'] at stepped
      cases stepped
      exact runs
    · rw [stepped'] at stepped
      cases stepped

theorem Passes.cons {ok : Machine → Prop} {start next : Machine} {n : Nat} (first : ok start)
    (stepped : Control.step start = .ok none next) (h : Passes ok next n m) :
    Passes ok start (n + 1) m := by
  induction h with
  | start => exact .step .start first stepped
  | step _ disciplined stepped' ih => exact .step ih disciplined stepped'

/-- A run of disciplined steps ends at a halt word or when its time is over. -/
theorem runFor_halts (assembled : p.Assembled size words codes) (behaved : p.WellBehaved) (n : Nat)
    {start : Machine} (begins : start.Runs p size words)
    (disciplined : ∀ k < n, ∀ m,
      Passes (Machine.Disciplined words.length (p.variableBase size)) start k m →
      m.Disciplined words.length (p.variableBase size)) :
    ∃ r m', runFor n start = .ok r m' ∧ (r = .halt ∨ r = .timeout) := by
  induction n generalizing start with
  | zero => exact ⟨.timeout, start, rfl, .inr rfl⟩
  | succ n ih =>
    -- The first step is split off, so the discipline of later steps is asked for one passage
    -- further on.
    have first := disciplined 0 (Nat.zero_lt_succ n) start .start
    rcases begins.step assembled behaved first with ⟨next, stepped, runs⟩ | ⟨last, stepped, -⟩
    · obtain ⟨r, m', rest, good⟩ := ih runs (fun k bound m passes =>
        disciplined (k + 1) (Nat.succ_lt_succ bound) m (passes.cons first stepped))
      exact ⟨r, m', (runFor_of_goes_on n stepped).trans rest, good⟩
    · exact ⟨.halt, last, runFor_of_stops n stepped, .inl rfl⟩

end Control

/-- An assembled program that is well-behaved, loaded into a machine of the size that it was
assembled for, never goes wrong as long as its calls and returns are disciplined. The machine is not
traced, as a new one is, or it can write every number. -/
theorem assembled_program_stays_on_track {a : Assembler} {source : String} {words : List Int}
    {p : ObjectProgram} (assembled : (a.assemble source).2 = .ok words)
    (program : (a.assemble source).1.program = some p) (behaved : p.WellBehaved) {m : Machine}
    (reachable : m.Reachable a.memorySize) (unhindered : m.tracing = false ∨ m.writing = .total) :
    ∃ start, m.load words = .ok start ∧
      (∀ n m, Control.Passes
          (Machine.Disciplined words.length (a.memorySize - p.variableNames.length)) start n m →
        (m.registers.pc = 0 ∨ m.registers.pc = 3 ∨
          (∃ i ∈ p.instructions, m.registers.pc = 6 + i.offset) ∨
          m.registers.pc = words.length - 1) ∧
        m.main.cells.toList.take words.length = words ∧
        (m.Disciplined words.length (a.memorySize - p.variableNames.length) →
          ∃ reason m', Control.step m = .ok reason m' ∧ (reason = none ∨ reason = some .halt) ∧
            m'.main.cells.toList.take words.length = words)) ∧
      ∀ limit : Int,
        (∀ k : Nat, k < limit → ∀ m, Control.Passes
            (Machine.Disciplined words.length (a.memorySize - p.variableNames.length)) start k m →
          m.Disciplined words.length (a.memorySize - p.variableNames.length)) →
        ∃ r m', Control.run (some limit) start = some (.ok r m') ∧ (r = .halt ∨ r = .timeout) := by
  obtain ⟨p', parsed, linked, kept⟩ := Assembler.assemble_ok assembled
  cases program.symm.trans kept
  obtain ⟨d, finished, clean, rfl⟩ := Assembler.parse_ok parsed
  obtain ⟨codes, linked⟩ := assembled_of_link finished clean linked
  have fits := linked.fits
  have base := variableBase_le d.program a.memorySize
  obtain ⟨start, loaded, sound, fetching, blank, tracing, writing, code⟩ :=
    Machine.load_of_fits reachable.sound words (by omega)
  have begins : start.Runs d.program a.memorySize words := by
    refine ⟨sound.shape, by simp [fetching], ?_, .inl ⟨?_, code, by simp [blank]⟩⟩
    · rw [Machine.Unhindered, tracing, writing]
      exact unhindered
    · have cells : start.main.size = a.memorySize.toNat := sound.shape.main.cells
      show (start.main.size : Int) = _
      omega
  refine ⟨start, loaded, ?_, ?_⟩
  · intro n m passes
    have runs := passes.runs linked behaved begins
    refine ⟨runs.counter linked, runs.code linked, ?_⟩
    intro disciplined
    rcases runs.step linked behaved disciplined with ⟨m', stepped, next⟩ | ⟨m', stepped, same⟩
    · exact ⟨none, m', stepped, .inl rfl, next.code linked⟩
    · exact ⟨some .halt, m', stepped, .inr rfl, same ▸ runs.code linked⟩
  · intro limit disciplined
    obtain ⟨r, m', ran, good⟩ := Control.runFor_halts linked behaved limit.toNat begins
      (fun k bound m passes => disciplined k (by omega) m passes)
    exact ⟨r, m', congrArg some ran, good⟩

def callsOnce : String :=
  "n\njmp main\ngrow:\nadd %reg0 n\nret\nmain:\nmove 2 %reg0\ncall grow"

def callsOnceProgram : ObjectProgram where
  variableNames := ["n"]
  labels := [("grow", 2), ("main", 6)]
  instructions := [
    ⟨.jmp, [.symbol "main"], 2, "jmp main", 0⟩,
    ⟨.addRegMem, [.register "reg0", .symbol "n"], 4, "add %reg0 n", 2⟩,
    ⟨.ret, [], 5, "ret", 5⟩,
    ⟨.moveImmReg, [.literal "2", .register "reg0"], 7, "move 2 %reg0", 6⟩,
    ⟨.call, [.symbol "grow"], 8, "call grow", 9⟩]

theorem callsOnceProgram_wellBehaved : callsOnceProgram.WellBehaved where
  jumps i hi jumps name mem := by
    simp only [callsOnceProgram, List.mem_cons, List.not_mem_nil, or_false] at hi
    rcases hi with rfl | rfl | rfl | rfl | rfl
    · cases List.mem_singleton.mp mem
      exact ⟨6, by decide⟩
    · cases jumps
    · cases jumps
    · cases jumps
    · cases List.mem_singleton.mp mem
      exact ⟨2, by decide⟩
  destinations i hi name last := by
    simp only [callsOnceProgram, List.mem_cons, List.not_mem_nil, or_false] at hi
    rcases hi with rfl | rfl | rfl | rfl | rfl <;> cases last
    decide
  stores i hi stores name mem := by
    simp only [callsOnceProgram, List.mem_cons, List.not_mem_nil, or_false] at hi
    rcases hi with rfl | rfl | rfl | rfl | rfl
    · cases stores
    · rcases List.mem_cons.mp mem with other | mem
      · cases other
      · cases List.mem_singleton.mp mem
        decide
    · cases stores
    · cases stores
    · cases stores

theorem callsOnce_stays_on_track :
    ∃ words,
      ((Assembler.ofSize 64).assemble callsOnce).2 = .ok words ∧
      ((Assembler.ofSize 64).assemble callsOnce).1.program = some callsOnceProgram ∧
      callsOnceProgram.WellBehaved ∧ Machine.Reachable 64 { main := .blank 64 } ∧
      ∃ start, Machine.load { main := .blank 64 } words = .ok start ∧
        ∀ limit : Int,
          (∀ k : Nat, k < limit →
            ∀ m, Control.Passes (Machine.Disciplined words.length 63) start k m →
            m.Disciplined words.length 63) →
          ∃ r m', Control.run (some limit) start = some (.ok r m') ∧
            (r = .halt ∨ r = .timeout) := by
  have assembled : ((Assembler.ofSize 64).assemble callsOnce).2 =
      .ok [9, 63, 7, 9, 63, 6, 12, 12, 2, 1, 63, 20, 9, 2, 1, 19, 8, -1] := by decide +kernel
  have program : ((Assembler.ofSize 64).assemble callsOnce).1.program = some callsOnceProgram := by
    decide +kernel
  have reachable : Machine.Reachable 64 { main := .blank 64 } := .new {} rfl
  obtain ⟨start, loaded, -, runs⟩ :=
    assembled_program_stays_on_track assembled program callsOnceProgram_wellBehaved reachable
      (.inl rfl)
  exact ⟨_, assembled, program, callsOnceProgram_wellBehaved, reachable, start, loaded, runs⟩

end BusMachine
