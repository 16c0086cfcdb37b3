import BusMachine.Proofs.Instruction.Texts
import BusMachine.Proofs.Machine.MicroPrograms
import BusMachine.Proofs.Machine.Rules

/-!
A whole step, taken apart into the fetch, the trace line and the execution, and the execution into
the reading of the operand words and the body of the instruction. A line that holds a number too
long to be written breaks the step off before anything is executed.
-/
namespace BusMachine

open Disassembly

variable {size : Nat} {m : Machine} {v : Visible} {c : Opcode} {operands : List Int}

namespace Visible

/-- The words that are shown for the instruction at an address. -/
def shownAt (v : Visible) (a : Int) : List Int :=
  match decodeAt .total v.cells.toList a with
  | .ok d => Position.slice v.cells.toList a (a + d.size)
  | .error _ => []

/-- The numbers in the trace line of a step: the words of its instruction, and the registers
after the fetch. -/
def lineNumbers (v : Visible) : List Int :=
  v.shownAt v.registers.pc ++ Register.all.map v.begun.registers.get

theorem decodeAt_shown {a : Int} (inside : v.Inside a) :
    ∃ d, ∀ k, decodeAt k v.cells.toList a = Disassembly.write k (v.shownAt a) d := by
  obtain ⟨d, decoded, -⟩ := exists_written inside.1 (show a < v.cells.toList.length from inside.2)
  have shown : v.shownAt a = Position.slice v.cells.toList a (a + d.size) := by
    rw [shownAt, decoded, write_total]
  exact ⟨d, shown ▸ decoded⟩

theorem getElem?_of_read {a : Int} {w : Int} (inside : v.Inside a) (word : v.read a = w) :
    v.cells.toList[a.toNat]? = some w := by
  have low := inside.1
  have high := inside.2
  have bound : a.toNat < v.cells.size := by omega
  rw [read, Array.getD_eq_getD_getElem?, Array.getElem?_eq_getElem bound, Option.getD_some] at word
  rw [Array.getElem?_toList, Array.getElem?_eq_getElem bound, word]

/-- An instruction that is all there is shown with its operands. -/
theorem shownAt_of_holds (holds : v.Holds c operands) :
    v.shownAt v.registers.pc = (c.id : Int) :: operands := by
  have low := holds.low
  have high := holds.high
  let e : Encoded := ⟨c, operands, holds.count⟩
  have length : e.words.length = c.size := e.words_length
  have stand : e.words <+: v.cells.toList.drop v.registers.pc.toNat := by
    rw [List.prefix_iff_getElem?]
    intro i bound
    have inside : v.Inside (v.registers.pc + i) := ⟨by omega, by omega⟩
    rw [List.getElem?_drop, ← Int.toNat_add_nat low]
    refine getElem?_of_read inside ?_
    cases i with
    | zero => simpa [e, Encoded.words] using holds.opcode
    | succ i =>
      have word := holds.words i _ (List.getElem?_eq_getElem (Nat.lt_of_succ_lt_succ bound))
      rwa [Int.add_right_comm, Int.add_assoc] at word
  have decodes := Decodes.whole e stand
  obtain ⟨a, counter⟩ := Int.eq_ofNat_of_zero_le low
  rw [counter, Int.toNat_natCast] at stand decodes
  rw [shownAt, counter, decodes.decodeAt_of_stands stand length .total, write_total]
  have room : a ≤ v.cells.toList.length := by
    rw [Array.length_toList]
    omega
  have shown := Position.slice_of_stands room stand
  rwa [length, Int.natCast_add] at shown

end Visible

namespace Machine

/-- The step is traced, and a number in its line is too long to be written. -/
structure LineTooLong (m : Machine) : Prop where
  tracing : m.tracing = true
  inside : m.visible.Inside m.registers.pc
  number : ∃ n ∈ m.visible.lineNumbers, m.writing.allows n = false

/-- The step comes to a fault whose number is too long to be written. -/
def FaultTooLong (m : Machine) : Prop :=
  ∃ f v, m.visible.Faulting f v ∧ m.writing.allows f.number = false

theorem not_lineTooLong_of_untraced (untraced : m.tracing = false) : ¬m.LineTooLong := fun long =>
  Bool.noConfusion (untraced.symm.trans long.tracing)

theorem not_lineTooLong_of_total (total : m.writing = .total) : ¬m.LineTooLong := fun long => by
  obtain ⟨n, -, denied⟩ := long.number
  rw [total] at denied
  cases denied

theorem not_lineTooLong_of_holds (holds : m.visible.Holds c operands)
    (words : ∀ w ∈ operands, Numeral.isWritable w = true)
    (registers : ∀ r, Numeral.isWritable (m.visible.begun.registers.get r) = true) :
    ¬m.LineTooLong := by
  rintro ⟨-, -, n, mem, denied⟩
  have writable : Numeral.isWritable n = true := by
    rcases List.mem_append.mp mem with shown | kept
    · rw [Visible.shownAt_of_holds holds] at shown
      rcases List.mem_cons.mp shown with rfl | operand
      · exact c.isWritable_id
      · exact words n operand
    · obtain ⟨r, -, rfl⟩ := List.mem_map.mp kept
      exact registers r
  cases (m.writing.allows_of_isWritable writable).symm.trans denied

theorem not_faultTooLong_of_total (total : m.writing = .total) : ¬m.FaultTooLong := by
  rintro ⟨f, v, -, denied⟩
  rw [total] at denied
  cases denied

theorem instructionLine_eq {d : Decoded} (seen : m.visible = v.begun)
    (decoded : ∀ k,
      decodeAt k v.cells.toList v.registers.pc = write k (v.shownAt v.registers.pc) d) :
    m.instructionLine v.registers.pc =
      (m.writing.require v.lineNumbers
        (Text.zeroPadded 4 v.registers.pc ++ ": " ++ Text.alignLeft 24 d.text ++ " " ++
          m.values)).mapError
        (fun _ => .unwritable) := by
  have cells : m.main.cells = v.cells := congrArg Visible.cells seen
  have registers : m.registers = v.begun.registers := congrArg Visible.registers seen
  rw [instructionLine, display, writeRegisters, cells, registers, decoded, Visible.lineNumbers]
  unfold write Writing.require
  rw [List.all_append]
  cases (v.shownAt v.registers.pc).all m.writing.allows <;>
    cases (Register.all.map v.begun.registers.get).all m.writing.allows <;> rfl

end Machine

namespace Control

/-- After the first word was fetched a line that can be written is added to the trace, if it
is switched on. -/
theorem traceInstruction_of_begun (seen : m.visible = v.begun) (inside : v.Inside v.registers.pc)
    (short : m.tracing = true → ∀ n ∈ v.lineNumbers, m.writing.allows n = true) :
    ∃ lines, traceInstruction v.registers.pc m = .ok () { m with trace := lines } := by
  obtain ⟨d, decoded⟩ := Visible.decodeAt_shown inside
  rw [traceInstruction, get_bind]
  by_cases on : m.tracing
  · rw [if_pos on, Machine.instructionLine_eq seen decoded, Writing.require_of_all (short on)]
    exact ⟨_, rfl⟩
  · rw [if_neg on]
    exact ⟨m.trace, rfl⟩

theorem traceInstruction_of_long (seen : m.visible = v.begun) (inside : v.Inside v.registers.pc)
    (on : m.tracing = true) {n : Int} (mem : n ∈ v.lineNumbers)
    (long : m.writing.allows n = false) :
    traceInstruction v.registers.pc m = .error .unwritable m := by
  obtain ⟨d, decoded⟩ := Visible.decodeAt_shown inside
  rw [traceInstruction, get_bind, if_pos on, Machine.instructionLine_eq seen decoded,
    Writing.require_of_not mem long]
  rfl

theorem step_of_halted (h : m.phase = .halted) : step m = .ok m.stop m := by
  rw [step, get_bind, if_pos h]
  rfl

/-- What a step adds to the machine that fetching and executing leave. -/
def finish (reason : Option StopReason) (m : Machine) : Machine :=
  match reason with
  | some r => { m with steps := m.steps + 1, phase := .halted, stop := some r }
  | none => { m with steps := m.steps + 1, phase := .fetch }

theorem step_of_unfetched {m' : Machine} {r : StopReason} (running : m.phase ≠ .halted)
    (fetched : fetch { m with phase := .fetch } = .ok (some r) m') :
    step m = .ok (some r) (finish (some r) m') := by
  rw [step, get_bind, if_neg running]
  simp only [enter, modify_bind, bind_of_ok fetched]
  rfl

/-- A failure leaves a step uncounted. -/
def finished : EStateM.Result DatapathError Machine (Option StopReason) →
    EStateM.Result DatapathError Machine (Option StopReason)
  | .ok reason m => .ok reason (finish reason m)
  | .error e m => .error e m

theorem step_of_fetched {m₁ m₂ : Machine} (running : m.phase ≠ .halted)
    (fetched : fetch { m with phase := .fetch } = .ok none m₁)
    (traced : traceInstruction m.registers.pc m₁ = .ok () m₂) :
    step m = finished (decodeExecuteCaught { m₂ with phase := .decodeExecute }) := by
  rw [step, get_bind, if_neg running]
  simp only [enter, modify_bind, bind_of_ok fetched, bind_of_ok traced]
  cases executed : decodeExecuteCaught { m₂ with phase := .decodeExecute } with
  | ok reason m₃ =>
    simp only [bind_of_ok executed]
    cases reason <;> rfl
  | error e m₃ =>
    simp only [bind_of_error executed]
    rfl

theorem step_of_untraced {m₁ m₂ : Machine} {e : DatapathError} (running : m.phase ≠ .halted)
    (fetched : fetch { m with phase := .fetch } = .ok none m₁)
    (failed : traceInstruction m.registers.pc m₁ = .error e m₂) : step m = .error e m₂ := by
  rw [step, get_bind, if_neg running]
  simp only [enter, modify_bind, bind_of_ok fetched, bind_of_error failed]

theorem fetchOperands_of_holds (seen : m.visible = v.begun) (holds : v.Holds c operands) :
    ∃ m₁, fetchOperands c.kinds m = .ok operands m₁ ∧ m₁.visible = v.fetched c operands ∧
      m₁.status = m.status := by
  have low := holds.low
  have high := holds.high
  have counter : m.registers.pc = v.registers.pc + 1 := congrArg (fun v => v.registers.pc) seen
  have word : m.registers.ir = c.id := (congrArg (fun v => v.registers.ir) seen).trans holds.opcode
  have same : m.main.size = v.cells.size := congrArg (fun v => v.cells.size) seen
  simp only [Opcode.size] at high
  obtain ⟨m₁, run, seen₁, status⟩ :=
    fetchOperands_of_inside (m := m) c.kinds operands holds.count (by omega)
    (by omega) (fun i w at_i => by
      rw [counter, seen]
      exact holds.words i w at_i)
  refine ⟨m₁, run, ?_, status⟩
  -- Fetching the operands one by one amounts to fetching the whole instruction.
  rw [seen₁, Visible.passedAll_kinds _ c operands (Nat.le_of_eq holds.count) word, holds.count,
    seen]
  simp only [Visible.fetched, Opcode.size, Int.natCast_add, Int.cast_ofNat_Int, ← Int.add_assoc]
  rfl

theorem decodeExecute_eq (m : Machine) :
    decodeExecute m =
      (if m.registers.ir = haltWord then pure (some .halt)
        else match Opcode.ofWord? m.registers.ir with
          | none => pure (some .illegal)
          | some c => execute c >>= fun _ => pure none : Control (Option StopReason))
        (m.putInternal m.registers.ir) := rfl

theorem decodeExecute_of_opcode (opcode : m.registers.ir = c.id) :
    decodeExecute m = (execute c >>= fun _ => pure none) (m.putInternal m.registers.ir) := by
  have word : m.registers.ir ≠ haltWord := opcode ▸ c.id_ne_haltWord
  have decoded : Opcode.ofWord? m.registers.ir = some c := opcode ▸ c.ofWord?_id
  rw [decodeExecute_eq, if_neg word, decoded]

theorem decodeExecute_of_haltWord (halting : m.registers.ir = haltWord) :
    decodeExecute m = .ok (some .halt) (m.putInternal m.registers.ir) := by
  rw [decodeExecute_eq, if_pos halting]
  rfl

theorem decodeExecute_of_unknown (word : m.registers.ir ≠ haltWord)
    (unknown : Opcode.ofWord? m.registers.ir = none) :
    decodeExecute m = .ok (some .illegal) (m.putInternal m.registers.ir) := by
  rw [decodeExecute_eq, if_neg word, unknown]
  rfl

theorem decodeExecute_reason {m' : Machine} {reason : Option StopReason}
    (h : decodeExecute m = .ok reason m') :
    reason = none ∨ reason = some .halt ∨ reason = some .illegal := by
  by_cases halting : m.registers.ir = haltWord
  · rw [decodeExecute_of_haltWord halting] at h
    cases h
    exact .inr (.inl rfl)
  · cases decoded : Opcode.ofWord? m.registers.ir with
    | none =>
      rw [decodeExecute_of_unknown halting decoded] at h
      cases h
      exact .inr (.inr rfl)
    | some c =>
      rw [decodeExecute_of_opcode (Opcode.eq_id_of_ofWord? decoded)] at h
      cases run : execute c (m.putInternal m.registers.ir) with
      | ok u m₁ =>
        rw [bind_of_ok run] at h
        cases h
        exact .inl rfl
      | error e m₁ =>
        rw [bind_of_error run] at h
        cases h

/-- The first phase of a step and its trace line. The answer is the reason to stop, if there
is one already. -/
def opening : Control (Option StopReason) := do
  let start ← get
  enter .fetch
  match ← fetch with
  | some r => return some r
  | none =>
    traceInstruction start.registers.pc
    enter .decodeExecute
    return none

/-- A step up to the body of its instruction. The answer is the instruction and the words of its
operands, if a whole instruction is there. -/
def readInstruction : Control (Option (Opcode × List Int)) := do
  match ← opening with
  | some _ => return none
  | none =>
    performAll [.give .ir]
    match Opcode.ofWord? (← get).buses.internal with
    | none => return none
    | some c => return some (c, ← fetchOperands c.kinds)

theorem opening_of_fetched {m₁ m₂ : Machine}
    (fetched : fetch { m with phase := .fetch } = .ok none m₁)
    (traced : traceInstruction m.registers.pc m₁ = .ok () m₂) :
    opening m = .ok none { m₂ with phase := .decodeExecute } := by
  rw [opening, get_bind]
  simp only [enter, modify_bind, bind_of_ok fetched, bind_of_ok traced]
  rfl

end Control

/-- How a step that answers leaves the machine. -/
structure Machine.Stepped (m : Machine) (reason : Option StopReason) (m' : Machine) : Prop where
  visible : m.visible.Step reason m'.visible
  steps : m'.steps = m.steps + 1
  phase : m'.phase = if reason.isSome then .halted else .fetch
  stop : m'.stop = reason.or m.stop
  status : reason ≠ none → m'.status.cells = m.status.cells
  tracing : m'.tracing = m.tracing
  writing : m'.writing = m.writing

/-- How a step that fails leaves the machine: it has not stopped, and the step is not counted. -/
structure Machine.BrokenOff (m m' : Machine) : Prop where
  steps : m'.steps = m.steps
  stop : m'.stop = m.stop
  status : m'.status.cells = m.status.cells
  tracing : m'.tracing = m.tracing
  writing : m'.writing = m.writing

namespace Control

theorem finish_wellFormed (reason : Option StopReason) (shape : m.WellFormed size) :
    (finish reason m).WellFormed size := by
  cases reason <;> exact ⟨shape.main, shape.status, shape.flags⟩

theorem noteFault_eq (m : Machine) (f : Fault) :
    ∃ lines, noteFault m f = { m with trace := lines } := by
  unfold noteFault
  split
  · exact ⟨_, rfl⟩
  · exact ⟨m.trace, rfl⟩

theorem fetch_inside_safe (shape : m.WellFormed size) (inside : m.visible.Inside m.registers.pc) :
    ∃ m', fetch m = .ok none m' ∧ m'.WellFormed size ∧ m.SameCourse m' ∧ m'.status = m.status ∧
      m'.visible = m.visible.begun := by
  have safe := fetch_safe size m shape
  have run := fetch_of_inside inside.1 inside.2
  rw [run] at safe
  exact ⟨_, run, safe.1, safe.2, rfl, rfl⟩

theorem step_of_lineTooLong (shape : m.WellFormed size) (running : m.phase ≠ .halted)
    (long : m.LineTooLong) :
    ∃ m', step m = .error .unwritable m' ∧ m'.WellFormed size ∧ m'.phase = .fetch ∧
      m'.visible = m.visible.begun ∧ m.BrokenOff m' := by
  have shape₀ : Machine.WellFormed size { m with phase := .fetch } :=
    ⟨shape.main, shape.status, shape.flags⟩
  obtain ⟨m₁, fetched, shape₁, course, status, seen⟩ := fetch_inside_safe shape₀ long.inside
  obtain ⟨n, mem, denied⟩ := long.number
  have failed := traceInstruction_of_long seen long.inside (course.tracing.trans long.tracing) mem
    (course.writing.symm ▸ denied)
  exact ⟨m₁, step_of_untraced running fetched failed, shape₁, course.phase, seen, course.steps,
    course.stop,
    congrArg Memory.cells status, course.tracing, course.writing⟩

/-- Where its trace line can be written, a step goes on to the execution. -/
theorem step_of_decoded (shape : m.WellFormed size) (running : m.phase ≠ .halted)
    (inside : m.visible.Inside m.registers.pc) (short : ¬m.LineTooLong) :
    ∃ m₁ : Machine, m₁.WellFormed size ∧ m.BrokenOff m₁ ∧ m₁.phase = .decodeExecute ∧
      m₁.status = m.status ∧
      m₁.visible = m.visible.begun ∧ opening m = .ok none m₁ ∧
        step m = finished (decodeExecuteCaught m₁) := by
  have shape₀ : Machine.WellFormed size { m with phase := .fetch } :=
    ⟨shape.main, shape.status, shape.flags⟩
  obtain ⟨m₁, fetched, shape₁, course, status, seen⟩ := fetch_inside_safe shape₀ inside
  have writable : m₁.tracing = true → ∀ n ∈ m.visible.lineNumbers, m₁.writing.allows n = true := by
    intro on n mem
    by_contra denied
    rw [course.writing] at denied
    exact short ⟨course.tracing.symm.trans on, inside, n, mem, Bool.eq_false_iff.mpr denied⟩
  obtain ⟨lines, traced⟩ := traceInstruction_of_begun seen inside writable
  exact ⟨{ m₁ with trace := lines, phase := .decodeExecute },
    ⟨shape₁.main, shape₁.status, shape₁.flags⟩,
    ⟨course.steps, course.stop, congrArg Memory.cells status, course.tracing, course.writing⟩, rfl,
      status, seen,
    opening_of_fetched fetched traced, step_of_fetched running fetched traced⟩

end Control

end BusMachine
