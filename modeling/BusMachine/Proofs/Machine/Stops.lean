import BusMachine.Proofs.Machine.Faults

/-!
The control unit goes by the rules: a step stops for the reason that they give and for no other, and
what it leaves is what they say. It fails only where a number has to be written that is too long.
-/
namespace BusMachine

variable {size : Nat} {m m' : Machine} {v : Visible} {c : Opcode} {f : Fault}
  {reason : Option StopReason}

/-- Why a step fails, and what it leaves. -/
inductive Machine.Fails (m m' : Machine) : Prop where
  | line : m.LineTooLong → m'.phase = .fetch → m'.visible = m.visible.begun → Fails m m'
  | fault {f : Fault} : ¬m.LineTooLong → m.visible.Faulting f m'.visible →
      m.writing.allows f.number = false → m'.phase = .decodeExecute → Fails m m'

theorem Machine.Fails.running (h : m.Fails m') : m'.phase ≠ .halted := by
  cases h with
  | line _ phase | fault _ _ _ phase => simp [phase]

theorem Machine.Fails.writing (h : m.Fails m') : m.writing ≠ .total := by
  intro total
  cases h with
  | line long => exact not_lineTooLong_of_total total long
  | fault _ faulting denied => exact not_faultTooLong_of_total total ⟨_, _, faulting, denied⟩

namespace Control

/-- The outcome of the execution: a reason to go on or to stop, or a fault that is not reported. -/
inductive Executed (m : Machine) (v : Visible) :
    EStateM.Result DatapathError Machine (Option StopReason) → Prop where
  | answer {reason : Option StopReason} {m' : Machine} : v.Step reason m'.visible →
      (∀ f w, v.Faulting f w → m.writing.allows f.number = true) →
      (reason ≠ none → m'.status = m.status) → Executed m v (.ok reason m')
  | fault {f : Fault} {m' : Machine} : v.Faulting f m'.visible → m.writing.allows f.number = false →
      m'.status = m.status → Executed m v (.error .unwritable m')

theorem decodeExecute_faults {w : Visible} (opcode : m.registers.ir = c.id)
    (h : Faults (execute c) (m.putInternal m.registers.ir) f w) : Faults decodeExecute m f w := by
  obtain ⟨m', run, seen, status⟩ := h
  exact ⟨m', by rw [decodeExecute_of_opcode opcode, bind_of_error run]; rfl, seen, status⟩

/-- A fault becomes a reason to stop if its number can be written. -/
theorem executed_of_faults {w : Visible} (faulting : v.Faulting f w)
    (h : Faults decodeExecute m f w) :
    Executed m v (decodeExecuteCaught m) := by
  obtain ⟨m', run, rfl, status⟩ := h
  cases allowed : m.writing.allows f.number with
  | true =>
    rw [Fault.raised, if_pos allowed] at run
    obtain ⟨lines, noted⟩ := noteFault_eq m' f
    simp only [decodeExecuteCaught, run, noted]
    refine .answer faulting.step ?_ (fun _ => status)
    intro g w other
    rwa [(other.unique faulting).1]
  | false =>
    rw [Fault.raised, if_neg (by simp [allowed])] at run
    simp only [decodeExecuteCaught, run]
    exact .fault faulting allowed status

theorem executed_of_stop {r : StopReason} {m' : Machine} (run : decodeExecute m = .ok (some r) m')
    (rule : v.Step (some r) m'.visible) (other : r ≠ .fault) (status : m'.status = m.status) :
    Executed m v (decodeExecuteCaught m) := by
  simp only [decodeExecuteCaught, run]
  refine .answer rule ?_ (fun _ => status)
  intro f w faulting
  exact absurd (Option.some.inj (rule.unique faulting.step).1) other

theorem decodeExecuteCaught_executed (shape : m.WellFormed size) (seen : m.visible = v.begun)
    (inside : v.Inside v.registers.pc) : Executed m v (decodeExecuteCaught m) := by
  have word : m.registers.ir = v.read v.registers.pc := congrArg (fun v => v.registers.ir) seen
  have shape₀ : (m.putInternal m.registers.ir).WellFormed size :=
    ⟨shape.main, shape.status, shape.flags⟩
  by_cases halting : v.read v.registers.pc = haltWord
  · exact executed_of_stop (decodeExecute_of_haltWord (word.trans halting))
      (seen ▸ .halt inside halting)
      (by decide) rfl
  cases decoded : Opcode.ofWord? (v.read v.registers.pc) with
  | none =>
    have unknown : Opcode.ofWord? m.registers.ir = none := word ▸ decoded
    have range := Opcode.range_of_ofWord?_none decoded
    have other : v.read v.registers.pc ≠ -1 := halting
    exact executed_of_stop (decodeExecute_of_unknown (word ▸ halting) unknown)
      (seen ▸ .illegal inside (by omega)) (by decide) rfl
  | some c =>
    have opcode := Opcode.eq_id_of_ofWord? decoded
    have opcode' : m.registers.ir = c.id := word.trans opcode
    by_cases short : v.cells.size < v.registers.pc + c.size
    · exact executed_of_faults (.cutShort inside opcode short)
        (decodeExecute_faults opcode' (execute_of_short shape₀ seen inside opcode short))
    · obtain ⟨operands, holds⟩ := Visible.exists_holds inside opcode (Int.not_lt.mp short)
      cases fault : v.fault? c operands with
      | some f =>
        exact executed_of_faults (.refused holds fault)
          (decodeExecute_faults opcode' (execute_of_denied shape₀ seen holds fault))
      | none =>
        have permits := (Visible.permits_iff_fault? holds.count).mpr fault
        obtain ⟨m₁, read, fetched, -⟩ :=
          fetchOperands_of_holds (m := m.putInternal m.registers.ir) seen holds
        have safe := fetchOperands_safe c.kinds size _ shape₀
        rw [read] at safe
        have held : m₁.registers.ir = Visible.held c operands :=
          congrArg (fun v => v.registers.ir) fetched
        have permits₁ : m₁.visible.Permits c operands :=
          fetched ▸ ⟨permits.registers, permits.address⟩
        obtain ⟨m₂, done, effect⟩ := body_completes safe.1 c operands holds.count permits₁ held
        have run : decodeExecute m = .ok none m₂ := by
          rw [decodeExecute_of_opcode opcode', execute, bind_assoc, bind_of_ok read,
            bind_of_ok done]
          rfl
        have rule : v.Step none m₂.visible := effect ▸ fetched ▸ .proceeds holds permits
        simp only [decodeExecuteCaught, run]
        refine .answer rule ?_ (fun other => absurd rfl other)
        intro f w faulting
        cases (rule.unique faulting.step).1

/-- The execution keeps the shape, the counter and the reason, whatever comes of it. -/
theorem decodeExecuteCaught_safe (shape : m.WellFormed size) :
    match decodeExecuteCaught m with
    | .ok _ m' | .error _ m' => m'.WellFormed size ∧ m'.phase = m.phase ∧ m'.stop = m.stop ∧
        m'.steps = m.steps ∧ m'.tracing = m.tracing ∧ m'.writing = m.writing := by
  have safe := decodeExecute_safe size m shape
  cases run : decodeExecute m with
  | ok reason m' =>
    rw [run] at safe
    simp only [decodeExecuteCaught, run]
    exact ⟨safe.1, safe.2.phase, safe.2.stop, safe.2.steps, safe.2.tracing, safe.2.writing⟩
  | error e m' =>
    rw [run] at safe
    obtain ⟨shape', course⟩ := safe.1
    cases e with
    | fault f =>
      obtain ⟨lines, noted⟩ := noteFault_eq m' f
      simp only [decodeExecuteCaught, run, noted]
      exact ⟨⟨shape'.main, shape'.status, shape'.flags⟩, course.phase, course.stop, course.steps,
        course.tracing, course.writing⟩
    | _ =>
      simp only [decodeExecuteCaught, run]
      exact ⟨shape', course.phase, course.stop, course.steps, course.tracing, course.writing⟩

/-- A machine that is not halted makes the step that the rules allow, or fails where a number is too
long. -/
theorem step_by_rules (shape : m.WellFormed size) (running : m.phase ≠ .halted) :
    (∃ reason m', step m = .ok reason m' ∧ m'.WellFormed size ∧ m.Stepped reason m' ∧
      ¬m.LineTooLong ∧ ¬m.FaultTooLong) ∨
      ∃ m', step m = .error .unwritable m' ∧ m'.WellFormed size ∧ m.BrokenOff m' ∧ m.Fails m' := by
  by_cases inside : m.visible.Inside m.registers.pc
  · by_cases long : m.LineTooLong
    · obtain ⟨m', stepped, shape', phase, seen, broken⟩ := step_of_lineTooLong shape running long
      exact .inr ⟨m', stepped, shape', broken, .line long phase seen⟩
    · obtain ⟨m₁, shape₁, broken, phase, status, seen, -, stepped⟩ :=
        step_of_decoded shape running inside long
      have executed := decodeExecuteCaught_executed shape₁ seen inside
      have safe := decodeExecuteCaught_safe shape₁
      cases run : decodeExecuteCaught m₁ with
      | ok reason m₂ =>
        rw [run] at stepped executed safe
        obtain ⟨shape₂, -, stop, steps, tracing, writing⟩ := safe
        cases executed with
        | answer rule reported status₂ =>
          have kept (other : reason ≠ none) : (finish reason m₂).status.cells = m.status.cells := by
            rw [← status, ← status₂ other]
            cases reason <;> rfl
          have seen₂ : (finish reason m₂).visible = m₂.visible := by cases reason <;> rfl
          refine .inl ⟨reason, _, stepped, finish_wellFormed _ shape₂, ?_, long, ?_⟩
          · have steps := congrArg (· + 1) (steps.trans broken.steps)
            have stop := stop.trans broken.stop
            have tracing := tracing.trans broken.tracing
            have writing := writing.trans broken.writing
            cases reason with
            | none => exact ⟨seen₂ ▸ rule, steps, rfl, stop, kept, tracing, writing⟩
            | some r => exact ⟨seen₂ ▸ rule, steps, rfl, rfl, kept, tracing, writing⟩
          · rintro ⟨f, w, faulting, denied⟩
            have allowed := reported f w faulting
            rw [broken.writing, denied] at allowed
            cases allowed
      | error e m₂ =>
        rw [run] at stepped executed safe
        obtain ⟨shape₂, phase₂, stop, steps, tracing, writing⟩ := safe
        cases executed with
        | fault faulting denied status₂ =>
          rw [broken.writing] at denied
          refine .inr ⟨m₂, stepped, shape₂, ?_, .fault long faulting denied (phase₂.trans phase)⟩
          exact ⟨steps.trans broken.steps, stop.trans broken.stop,
            (congrArg Memory.cells status₂).trans broken.status,
            tracing.trans broken.tracing, writing.trans broken.writing⟩
  · have shape₀ : Machine.WellFormed size { m with phase := .fetch } :=
      ⟨shape.main, shape.status, shape.flags⟩
    have rule : m.visible.Step (some .outOfRange) m.visible := .outOfRange inside
    refine .inl ⟨_, _, step_of_unfetched running (fetch_of_outside inside),
      finish_wellFormed _ shape₀,
      ⟨rule, rfl, rfl, rfl, fun _ => rfl, rfl, rfl⟩, fun long => inside long.inside, ?_⟩
    rintro ⟨f, w, faulting, -⟩
    cases (rule.unique faulting.step).1

theorem step_of_rule (shape : m.WellFormed size) (running : m.phase ≠ .halted)
    (rule : m.visible.Step reason v) (line : ¬m.LineTooLong) (fault : ¬m.FaultTooLong) :
    ∃ m', step m = .ok reason m' ∧ m'.WellFormed size ∧ m.Stepped reason m' ∧ m'.visible = v := by
  rcases step_by_rules shape running with ⟨_, m', stepped, shape', left, -⟩ | ⟨m', -, -, -, fails⟩
  · obtain ⟨rfl, seen⟩ := left.visible.unique rule
    exact ⟨m', stepped, shape', left, seen⟩
  · cases fails with
    | line long => exact absurd long line
    | fault _ faulting denied => exact absurd ⟨_, _, faulting, denied⟩ fault

theorem not_faultTooLong_of_rule (rule : m.visible.Step reason v) (other : reason ≠ some .fault) :
    ¬m.FaultTooLong := by
  rintro ⟨f, w, faulting, -⟩
  exact other (rule.unique faulting.step).1

theorem stepped_of_ok (shape : m.WellFormed size) (running : m.phase ≠ .halted)
    (stepped : step m = .ok reason m') :
    m'.WellFormed size ∧ m.Stepped reason m' := by
  rcases step_by_rules shape running with ⟨_, _, stepped', shape', left, -⟩ | ⟨_, failed, -⟩
  · cases stepped.symm.trans stepped'
    exact ⟨shape', left⟩
  · cases stepped.symm.trans failed

theorem step_proceeds (shape : m.WellFormed size) (running : m.phase ≠ .halted)
    (stepped : step m = .ok none m') :
    m'.WellFormed size ∧ m'.phase = .fetch ∧ ∃ c operands, m.visible.Holds c operands ∧
      m.visible.Permits c operands ∧
        m'.visible = Visible.effect c operands (m.visible.fetched c operands) := by
  obtain ⟨shape', left⟩ := stepped_of_ok shape running stepped
  exact ⟨shape', left.phase, left.visible.of_none⟩

theorem step_of_permitted {operands : List Int} (shape : m.WellFormed size)
    (running : m.phase ≠ .halted) (line : ¬m.LineTooLong) (holds : m.visible.Holds c operands)
    (permits : m.visible.Permits c operands) :
    ∃ m', step m = .ok none m' ∧ m'.WellFormed size ∧ m.Stepped none m' ∧
      m'.visible = Visible.effect c operands (m.visible.fetched c operands) := by
  have rule := Visible.Step.proceeds holds permits
  exact step_of_rule shape running rule line (not_faultTooLong_of_rule rule (by decide))

theorem step_of_haltWord (shape : m.WellFormed size) (running : m.phase ≠ .halted)
    (line : ¬m.LineTooLong) (inside : m.visible.Inside m.registers.pc)
    (word : m.visible.read m.registers.pc = -1) :
    ∃ m', step m = .ok (some .halt) m' ∧ m'.WellFormed size ∧ m.Stepped (some .halt) m' ∧
      m'.visible = m.visible.begun := by
  have rule := Visible.Step.halt inside word
  exact step_of_rule shape running rule line (not_faultTooLong_of_rule rule (by decide))

end Control

end BusMachine
