import BusMachine.Proofs.Machine.Isolation

/-!
Tracing watches and does not interfere. What the control unit does with registers, memories and
buses does not depend on the records that it keeps beside them, and with the trace switched on each
step adds the line of its instruction to the trace, and the line of its fault if there is one, as
far as they can be written.
-/
namespace BusMachine

open Control Disassembly

/-- The records that the control unit keeps of its work, beside the parts that it works on. -/
structure Course where
  phase : Phase
  stop : Option StopReason
  steps : Nat
  tracing : Bool
  trace : Array String

namespace Machine

variable {m : Machine} {size : Nat}

/-- The machine with other records. -/
def along (m : Machine) (k : Course) : Machine :=
  { m with
    phase := k.phase, stop := k.stop, steps := k.steps, tracing := k.tracing, trace := k.trace }

/-- The machine with another trace. -/
def recording (m : Machine) (on : Bool) (lines : Array String) : Machine :=
  { m with tracing := on, trace := lines }

@[simp] theorem along_buses (m : Machine) (c : Course) : (m.along c).buses = m.buses := rfl

@[simp] theorem along_flags (m : Machine) (c : Course) : (m.along c).flags = m.flags := rfl

@[simp] theorem along_writing (m : Machine) (c : Course) : (m.along c).writing = m.writing := rfl

@[simp] theorem along_selected (m : Machine) (c : Course) : (m.along c).selected = m.selected := rfl

@[simp] theorem along_bank (m : Machine) (k : MemoryBank) (c : Course) :
    (m.along c).bank k = m.bank k := by
  cases k <;> rfl

@[simp] theorem along_setBank (m : Machine) (k : MemoryBank) (b : Memory) (c : Course) :
    (m.along c).setBank k b = (m.setBank k b).along c := by
  cases k <;> rfl

/-- A micro-operation neither reads nor writes the records. -/
theorem perform_along (m : Machine) (op : MicroOp) (c : Course) :
    (m.along c).perform op = (m.perform op).map (·.along c) := by
  cases op with
  | giveSelected | takeSelected =>
    simp only [perform, along_selected]
    cases m.selected <;> rfl
  | select k =>
    simp only [perform, along_bank, along_buses, along_setBank, along_writing]
    cases (m.bank k).select k.name (m.buses.get k.wire) <;> rfl
  | read k =>
    simp only [perform, along_bank]
    cases (m.bank k).read <;> rfl
  | store k =>
    simp only [perform, along_bank, along_buses, along_setBank]
    cases (m.bank k).store (m.buses.get k.wire) <;> rfl
  | recordFlag f =>
    simp only [perform, along_flags, along_buses]
    cases m.flags.record m.buses.internal f <;> rfl
  | giveFlag f =>
    simp only [perform, along_flags]
    cases m.flags.get f.position <;> rfl
  | _ => rfl

end Machine

namespace Control

variable {α β : Type} {size : Nat} {m : Machine}

/-- The outcome with other records in the machine that it leaves. -/
def outcomeAlong (c : Course) :
    EStateM.Result DatapathError Machine α → EStateM.Result DatapathError Machine α
  | .ok a m => .ok a (m.along c)
  | .error e m => .error e (m.along c)

/-- Control that neither reads nor writes the records of the machine. -/
def Oblivious (x : Control α) : Prop :=
  ∀ (m : Machine) (c : Course), x (m.along c) = outcomeAlong c (x m)

theorem oblivious_pure (a : α) : Oblivious (pure a) := fun _ _ => rfl

theorem oblivious_bind {x : Control α} {f : α → Control β} (first : Oblivious x)
    (then_ : ∀ a, Oblivious (f a)) :
    Oblivious (x >>= f) := by
  intro m c
  have moved := first m c
  cases run : x m with
  | ok a m' =>
    rw [run] at moved
    rw [bind_of_ok moved, bind_of_ok run]
    exact then_ a m' c
  | error e m' =>
    rw [run] at moved
    rw [bind_of_error moved, bind_of_error run]
    rfl

/-- What is looked up in the machine must not be one of the records. -/
theorem oblivious_get_bind {f : Machine → Control β} (blind : ∀ m c, f (m.along c) = f m)
    (then_ : ∀ m, Oblivious (f m)) : Oblivious (get >>= f) := by
  intro m c
  rw [get_bind, get_bind, blind]
  exact then_ m m c

theorem performAll_oblivious (ops : List MicroOp) : Oblivious (performAll ops) := by
  induction ops with
  | nil => exact fun _ _ => rfl
  | cons op ops ih =>
    intro m c
    have moved := m.perform_along op c
    cases done : m.perform op with
    | ok m' =>
      rw [done] at moved
      rw [performAll_cons ops moved, performAll_cons ops done]
      exact ih m' c
    | error e =>
      rw [done] at moved
      simp only [performAll, moved, done]
      rfl

theorem fetch_oblivious : Oblivious fetch := by
  refine oblivious_get_bind (fun _ _ => rfl) ?_
  intro m
  split
  · exact oblivious_bind (performAll_oblivious _) (fun _ => oblivious_pure _)
  · exact oblivious_pure _

theorem fetchOperand_oblivious (kind : OperandKind) : Oblivious (fetchOperand kind) := by
  refine oblivious_bind (performAll_oblivious _) (fun _ => oblivious_get_bind (fun _ _ => rfl) ?_)
  intro m
  exact oblivious_bind (performAll_oblivious _)
    (fun _ => oblivious_bind (performAll_oblivious _) (fun _ => oblivious_pure _))

theorem fetchOperands_oblivious (kinds : List OperandKind) : Oblivious (fetchOperands kinds) := by
  induction kinds with
  | nil => exact oblivious_pure _
  | cons kind kinds ih =>
    exact oblivious_bind (fetchOperand_oblivious kind)
      (fun _ => oblivious_bind ih (fun _ => oblivious_pure _))

theorem execute_oblivious (c : Opcode) : Oblivious (execute c) :=
  oblivious_bind (fetchOperands_oblivious _) (fun _ => performAll_oblivious _)

theorem decodeExecute_oblivious : Oblivious decodeExecute := by
  refine oblivious_bind (performAll_oblivious _) (fun _ => oblivious_get_bind (fun _ _ => rfl) ?_)
  intro m
  dsimp only
  split
  · exact oblivious_pure _
  · split
    · exact oblivious_pure _
    · exact oblivious_bind (execute_oblivious _) (fun _ => oblivious_pure _)

end Control

namespace Machine

variable {m : Machine}

/-- The line of the instruction `d` at the program counter, with what is shown of the machine after
its first word was fetched. -/
def traceLine (m : Machine) (d : Decoded) (shown : String) : String :=
  Text.zeroPadded 4 m.registers.pc ++ ": " ++ Text.alignLeft 24 d.text ++ " " ++ shown

/-- The first word of an instruction was fetched, and the instruction and what it left can
be shown. -/
structure Begins (m : Machine) (d : Decoded) (shown : String) (after : Machine) : Prop where
  running : m.phase ≠ .halted
  inside : m.visible.Inside m.registers.pc
  decoded : decodeAt m.writing m.main.cells.toList m.registers.pc = .ok d
  fetched : Control.fetch m = .ok none after
  shown : after.display = .ok shown

/-- The lines that a step adds to the trace of a machine, by the answer to the step. -/
inductive Records (m : Machine) : Option StopReason → List String → Prop where
  | halted : m.phase = .halted → Records m m.stop []
  | outside : m.phase ≠ .halted → ¬m.visible.Inside m.registers.pc → Records m (some .outOfRange) []
  | executed {d : Decoded} {shown : String} {after : Machine} {reason : Option StopReason} :
      m.Begins d shown after → reason ≠ some .fault → Records m reason [m.traceLine d shown]
  | faulted {d : Decoded} {shown : String} {after left : Machine} {f : Fault} : m.Begins d shown
      after →
      Control.decodeExecute after = .error (.fault f) left →
      Records m (some .fault) [m.traceLine d shown, faultLine f]

theorem Begins.recording {d : Decoded} {shown : String} {after : Machine}
    (h : m.Begins d shown after) (on : Bool) (old : Array String) :
    (m.recording on old).Begins d shown (after.along ⟨m.phase, m.stop, m.steps, on, old⟩) := by
  have fetched := fetch_oblivious m ⟨m.phase, m.stop, m.steps, on, old⟩
  rw [h.fetched] at fetched
  exact ⟨h.running, h.inside, h.decoded, fetched, h.shown⟩

theorem Records.recording {reason : Option StopReason} {lines : List String}
    (h : m.Records reason lines) (on : Bool) (old : Array String) :
    (m.recording on old).Records reason lines := by
  cases h with
  | halted halted => exact .halted halted
  | outside running outside => exact .outside running outside
  | executed begins other =>
    have records := Records.executed (begins.recording on old) other
    exact records
  | @faulted d shown after left f begins failed =>
    have failed' := decodeExecute_oblivious after ⟨m.phase, m.stop, m.steps, on, old⟩
    rw [failed] at failed'
    have records := Records.faulted (begins.recording on old) failed'
    exact records

/-- Where no number in its line is too long, the first word of an instruction is fetched and
shown. -/
theorem exists_begins {size : Nat} (shape : m.WellFormed size) (running : m.phase ≠ .halted)
    (inside : m.visible.Inside m.registers.pc)
    (short : ∀ n ∈ m.visible.lineNumbers, m.writing.allows n = true) :
    ∃ d shown after, m.Begins d shown after ∧ after.WellFormed size ∧ m.SameCourse after ∧
      after.visible = m.visible.begun := by
  obtain ⟨after, fetched, shape', course, -, seen⟩ := fetch_inside_safe shape inside
  obtain ⟨d, decoded⟩ := Visible.decodeAt_shown inside
  have written : decodeAt m.writing m.main.cells.toList m.registers.pc = .ok d :=
    (decoded m.writing).trans (write_of_all (fun n mem => short n (List.mem_append_left _ mem)) d)
  have registers : after.registers = m.visible.begun.registers := congrArg Visible.registers seen
  have shown : after.display = .ok after.values := by
    rw [display, writeRegisters, registers, course.writing]
    exact Writing.require_of_all (fun n mem => short n (List.mem_append_right _ mem)) _
  exact ⟨d, _, after, ⟨running, inside, written, fetched, shown⟩, shape', course, seen⟩

end Machine

namespace Course

/-- The records after lines for the trace, which are kept only with the trace switched on. -/
def noting (c : Course) (lines : List String) : Course :=
  { c with trace := if c.tracing then c.trace ++ lines.toArray else c.trace }

theorem noting_nil (c : Course) : c.noting [] = c := by
  unfold noting
  split <;> simp

end Course

namespace Control

variable {size : Nat} {m after : Machine} {c : Course}

theorem along_wellFormed (shape : m.WellFormed size) (c : Course) : (m.along c).WellFormed size :=
  ⟨shape.main, shape.status, shape.flags⟩

theorem traceInstruction_along {d : Decoded} {shown : String} (begins : m.Begins d shown after)
    (cells : after.main.cells = m.main.cells) (writing : after.writing = m.writing) (c : Course) :
    traceInstruction m.registers.pc (after.along c) =
      .ok () (after.along (c.noting [m.traceLine d shown])) := by
  have decoded : decodeAt (after.along c).writing (after.along c).main.cells.toList m.registers.pc =
    .ok d := by
    rw [← begins.decoded, ← cells, ← writing]
    rfl
  have line : (after.along c).instructionLine m.registers.pc = .ok (m.traceLine d shown) := by
    rw [Machine.instructionLine, decoded,
      show (after.along c).display = .ok shown from begins.shown]
    rfl
  obtain ⟨phase, stop, steps, on, old⟩ := c
  rw [traceInstruction, get_bind, line]
  cases on <;> rfl

theorem noteFault_along (m : Machine) (c : Course) (f : Fault) :
    noteFault (m.along c) f = m.along (c.noting [Machine.faultLine f]) := by
  obtain ⟨phase, stop, steps, on, old⟩ := c
  cases on <;> rfl

/-- An execution that answers adds the line of its fault, if there is one, whatever the
records are. -/
theorem decodeExecuteCaught_along (shape : m.WellFormed size)
    (answers : ∀ e left, decodeExecuteCaught m ≠ .error e left) :
    ∃ reason left lines, left.WellFormed size ∧ left.writing = m.writing ∧
      (∀ c, decodeExecuteCaught (m.along c) = .ok reason (left.along (c.noting lines))) ∧
      (reason ≠ some .fault ∧ lines = [] ∨
        ∃ f, reason = some .fault ∧ lines = [Machine.faultLine f] ∧
          decodeExecute m = .error (.fault f) left) := by
  have safe := decodeExecute_safe size m shape
  have moved := decodeExecute_oblivious m
  cases run : decodeExecute m with
  | ok reason left =>
    rw [run] at safe moved
    refine ⟨reason, left, [], safe.1, safe.2.writing, fun c => ?_, .inl ⟨?_, rfl⟩⟩
    · simp only [decodeExecuteCaught, moved, outcomeAlong, Course.noting_nil]
    · rcases decodeExecute_reason run with rfl | rfl | rfl <;> simp
  | error e left =>
    rw [run] at safe moved
    obtain ⟨shape', course⟩ := safe.1
    cases e with
    | fault f =>
      refine ⟨some .fault, left, [Machine.faultLine f], shape', course.writing, fun c => ?_,
        .inr ⟨f, rfl, rfl, rfl⟩⟩
      simp only [decodeExecuteCaught, moved, outcomeAlong, noteFault_along]
    | _ =>
      have broken : decodeExecuteCaught m = decodeExecute m := by
        simp only [decodeExecuteCaught, run]
      exact absurd (broken.trans run) (answers _ left)

/-- A step whose lines can be written adds them to any trace that is switched on, and to none that
is switched off. -/
theorem step_recording (shape : m.WellFormed size)
    (short : m.phase ≠ .halted → (∀ on old, ¬(m.recording on old).LineTooLong) ∧ ¬m.FaultTooLong) :
    ∃ reason lines, ∃ m' : Machine, m'.WellFormed size ∧ m'.writing = m.writing ∧
      m.Records reason lines ∧
      ∀ on old, step (m.recording on old) =
        .ok reason (m'.recording on (if on then old ++ lines.toArray else old)) := by
  have unchanged (on : Bool) (old : Array String) : (if on then old ++ #[] else old) = old := by
    cases on <;> simp
  by_cases halted : m.phase = .halted
  · refine ⟨m.stop, [], m, shape, rfl, .halted halted, fun on old => ?_⟩
    rw [unchanged]
    exact step_of_halted halted
  obtain ⟨line, fault⟩ := short halted
  by_cases inside : m.visible.Inside m.registers.pc
  · have writable : ∀ n ∈ m.visible.lineNumbers, m.writing.allows n = true := by
      intro n mem
      by_contra denied
      exact line true #[] ⟨rfl, inside, n, mem, Bool.eq_false_iff.mpr denied⟩
    obtain ⟨d, shown, after, begins, shape₁, course, seen⟩ :=
      Machine.exists_begins shape halted inside writable
    have executed := decodeExecuteCaught_executed shape₁ seen inside
    have answers (e : DatapathError) (left : Machine) : decodeExecuteCaught after ≠
      .error e left := by
      intro run
      rw [run] at executed
      cases executed with
      | fault faulting denied => exact fault ⟨_, _, faulting, course.writing ▸ denied⟩
    obtain ⟨reason, left, lines, shape₂, writing, run, answer⟩ :=
      decodeExecuteCaught_along shape₁ answers
    refine ⟨reason, m.traceLine d shown :: lines,
      finish reason (left.along ⟨.decodeExecute, m.stop, m.steps, m.tracing, m.trace⟩),
      finish_wellFormed _ (along_wellFormed shape₂ _), ?_, ?_, fun on old => ?_⟩
    · cases reason <;> exact writing.trans course.writing
    · rcases answer with ⟨other, rfl⟩ | ⟨f, rfl, rfl, failed⟩
      · exact .executed begins other
      · exact .faulted begins failed
    · have fetched := fetch_oblivious m ⟨.fetch, m.stop, m.steps, on, old⟩
      rw [begins.fetched] at fetched
      have traced := traceInstruction_along begins (congrArg Visible.cells seen) course.writing
        ⟨.fetch, m.stop, m.steps, on, old⟩
      rw [step_of_fetched (m := m.recording on old) halted fetched traced]
      have rest :=
        run { (Course.noting ⟨.fetch, m.stop, m.steps, on, old⟩ [m.traceLine d shown]) with
        phase := .decodeExecute }
      refine (congrArg finished rest).trans ?_
      cases on <;> cases reason
        <;> simp [finished, Course.noting, finish, Machine.recording, Machine.along]
  · refine ⟨some .outOfRange, [], finish (some .outOfRange) m, finish_wellFormed _ shape, rfl,
      .outside halted inside, fun on old => ?_⟩
    rw [unchanged]
    exact step_of_unfetched (m := m.recording on old) halted (fetch_of_outside inside)

/-- Nothing is too long where every number can be written, or where the step of a traced
machine answers. -/
theorem short_of_answers (shape : m.WellFormed size) {old : Array String}
    (writable : m.writing = .total ∨ ∃ reason next, step (m.recording true old) = .ok reason next)
    (running : m.phase ≠ .halted) :
    (∀ on old, ¬(m.recording on old).LineTooLong) ∧ ¬m.FaultTooLong := by
  rcases writable with total | ⟨reason, next, answered⟩
  · exact ⟨fun _ _ => Machine.not_lineTooLong_of_total total,
      Machine.not_faultTooLong_of_total total⟩
  · have shape' : (m.recording true old).WellFormed size := ⟨shape.main, shape.status, shape.flags⟩
    rcases step_by_rules shape' running with ⟨_, _, _, _, _, line, fault⟩ | ⟨_, failed, -⟩
    · exact ⟨fun _ _ long => line ⟨rfl, long.inside, long.number⟩, fault⟩
    · cases failed.symm.trans answered

/-- A run of steps, with the answers to them and the lines that they add to the trace. -/
inductive Traces : Machine → List (Option StopReason) → List String → Machine → Prop where
  | done (m : Machine) : Traces m [] [] m
  | step {m next left : Machine} {reason : Option StopReason} {reasons : List (Option StopReason)}
      {lines later : List String} : Control.step m = .ok reason next → m.Records reason lines →
      Traces next reasons later left → Traces m (reason :: reasons) (lines ++ later) left

theorem answers_recording (n : Nat) (shape : m.WellFormed size) {old : Array String}
    (other : Array String)
    (writable : m.writing = .total ∨
      ∃ reasons left, answers n (m.recording true old) = .ok reasons left) :
    ∃ reasons lines, ∃ left : Machine,
      answers n (m.recording true old) = .ok reasons (left.recording true (old ++ lines.toArray)) ∧
      answers n (m.recording false other) = .ok reasons (left.recording false other) ∧
      Traces (m.recording true old) reasons lines (left.recording true (old ++ lines.toArray)) := by
  induction n generalizing m old with
  | zero =>
    refine ⟨[], [], m, ?_⟩
    rw [List.toArray, Array.append_empty]
    exact ⟨rfl, rfl, .done _⟩
  | succ n ih =>
    have first : m.writing = .total ∨
      ∃ reason next, step (m.recording true old) = .ok reason next := by
      refine writable.imp_right ?_
      rintro ⟨reasons, left, answered⟩
      obtain ⟨reason, next, -, stepped, -⟩ := exists_of_answers answered
      exact ⟨reason, next, stepped⟩
    obtain ⟨reason, lines, next, shape', writing, records, stepped⟩ :=
      step_recording shape (short_of_answers shape first)
    have rest : next.writing = .total ∨
        ∃ reasons left, answers n (next.recording true (old ++ lines.toArray)) =
          .ok reasons left := by
      rcases writable with total | ⟨reasons, left, answered⟩
      · exact .inl (writing.trans total)
      · obtain ⟨_, _, later, stepped', rest, -⟩ := exists_of_answers answered
        cases stepped'.symm.trans (stepped true old)
        exact .inr ⟨later, left, rest⟩
    obtain ⟨reasons, later, left, on, off, traces⟩ := ih shape' rest
    refine ⟨reason :: reasons, lines ++ later, left, ?_⟩
    have all : old ++ (lines ++ later).toArray = old ++ lines.toArray ++ later.toArray := by simp
    rw [all]
    exact ⟨answers_of_step (stepped true old) on, answers_of_step (stepped false other) off,
      .step (stepped true old) (records.recording true old) traces⟩

end Control

/-- Steps with the trace switched on answer and leave what they do with the trace switched off, up
to the trace, and to that they add the lines of the steps. So it is where every number can be
written, and else as long as the steps with the trace switched on answer. -/
theorem tracing_only_records {m : Machine} {size : Int} (reachable : m.Reachable size) (n : Nat)
    (writable : m.writing = .total ∨
      ∃ reasons left, Control.answers n { m with tracing := true } = .ok reasons left) :
    ∃ reasons lines, ∃ left : Machine,
      Control.answers n { m with tracing := true } =
        .ok reasons (left.recording true (m.trace ++ lines.toArray)) ∧
      Control.answers n { m with tracing := false } =
        .ok reasons (left.recording false m.trace) ∧
      Control.Traces { m with tracing := true } reasons lines
        (left.recording true (m.trace ++ lines.toArray)) :=
  Control.answers_recording n reachable.sound.shape m.trace writable

/-- The answers to steps and the trace after them. -/
def answersAndTrace : EStateM.Result DatapathError Machine (List (Option StopReason)) →
    Option (List (Option StopReason) × Array String)
  | .ok reasons m => some (reasons, m.trace)
  | .error _ _ => none

/-- A machine that counts once, and is then about to read a cell that it has not. -/
def readsBeyond : Machine := (HostOperation.load [10, 1, 6, 9, 0]).after { main := .blank 5 }

/-- What three steps of it write to the trace. -/
def beyondTrace : Array String :=
  #["0000: inc %reg0                PC=1 IR=10 R0=0 R1=0 R2=0 R3=0 TOP=0 BOT=0 [..]",
    "0002: move [9] %ir             PC=3 IR=6 R0=1 R1=0 R2=0 R3=0 TOP=0 BOT=0 [..]",
    "  FAULT: MEM: address 9 out of range [0, 5)"]

theorem read_beyond_is_traced :
    readsBeyond.Reachable 5 ∧ ∃ left : Machine,
      Control.answers 3 { readsBeyond with tracing := true } =
        .ok [none, some .fault, some .fault] (left.recording true beyondTrace) ∧
      Control.answers 3 { readsBeyond with tracing := false } =
        .ok [none, some .fault, some .fault] (left.recording false #[]) := by
  have reachable : readsBeyond.Reachable 5 := .after _ (.new {} rfl)
  have blank : readsBeyond.trace = #[] := by decide +kernel
  have seen : answersAndTrace (Control.answers 3 { readsBeyond with tracing := true }) =
      some ([none, some .fault, some .fault], beyondTrace) := by decide +kernel
  have answered : ∃ reasons left, Control.answers 3 { readsBeyond with tracing := true } =
    .ok reasons left := by
    cases run : Control.answers 3 { readsBeyond with tracing := true } with
    | ok reasons left => exact ⟨reasons, left, rfl⟩
    | error e left =>
      rw [run] at seen
      cases seen
  obtain ⟨reasons, lines, left, on, off, -⟩ := tracing_only_records reachable 3 (.inr answered)
  have same : some (reasons, readsBeyond.trace ++ lines.toArray) =
      some ([none, some .fault, some .fault], beyondTrace) :=
    (congrArg answersAndTrace on).symm.trans seen
  obtain ⟨rfl, trace⟩ := Prod.mk.inj (Option.some.inj same)
  rw [trace] at on
  rw [blank] at off
  exact ⟨reachable, left, on, off⟩

end BusMachine
