import BusMachine.Machine.Host
import BusMachine.Proofs.Datapath.Bank

/-!
The shape that every machine keeps whatever a host does to it: both memories are intact, and there
are two flags. In that shape a micro-operation fails by a fault only.
-/
namespace BusMachine

structure Machine.WellFormed (size : Nat) (m : Machine) : Prop where
  main : m.main.Intact size
  status : m.status.Intact 2
  flags : m.flags.bits.length = 2

/-- The machines differ in registers, flags and datapath alone. -/
structure Machine.SameCourse (m m' : Machine) : Prop where
  phase : m'.phase = m.phase
  stop : m'.stop = m.stop
  steps : m'.steps = m.steps
  tracing : m'.tracing = m.tracing
  trace : m'.trace = m.trace
  writing : m'.writing = m.writing

namespace Machine

variable {size : Nat} {m m' : Machine}

theorem SameCourse.refl (m : Machine) : m.SameCourse m := ⟨rfl, rfl, rfl, rfl, rfl, rfl⟩

theorem SameCourse.trans {a b c : Machine} (h : a.SameCourse b) (k : b.SameCourse c) :
    a.SameCourse c :=
  ⟨k.phase.trans h.phase, k.stop.trans h.stop, k.steps.trans h.steps, k.tracing.trans h.tracing,
    k.trace.trans h.trace, k.writing.trans h.writing⟩

theorem WellFormed.flags_eq (h : m.WellFormed size) :
    m.flags = ⟨[m.flagBit .zero, m.flagBit .negative]⟩ := by
  have two := h.flags
  rcases hf : m.flags with ⟨bits⟩
  rw [hf] at two
  match bits, two with
  | [z, n], _ =>
    simp only [flagBit, hf]
    rfl

theorem WellFormed.bank (h : m.WellFormed size) (k : MemoryBank) :
    ∃ cells, (m.bank k).Intact cells := by
  cases k with
  | main => exact ⟨size, h.main⟩
  | status => exact ⟨2, h.status⟩

theorem WellFormed.setBank (h : m.WellFormed size) (k : MemoryBank) {b : Memory}
    (kept : ∀ cells, (m.bank k).Intact cells → b.Intact cells) :
    (m.setBank k b).WellFormed size := by
  cases k with
  | main => exact ⟨kept size h.main, h.status, h.flags⟩
  | status => exact ⟨h.main, kept 2 h.status, h.flags⟩

theorem setBank_sameCourse (m : Machine) (k : MemoryBank) (b : Memory) :
    m.SameCourse (m.setBank k b) := by
  cases k <;> exact ⟨rfl, rfl, rfl, rfl, rfl, rfl⟩

end Machine

theorem Flags.set_length {f f' : Flags} {i : Int} {bit : Bool} (h : f.set i bit = .ok f') :
    f'.bits.length = f.bits.length := by
  unfold Flags.set at h
  cases found : Position.locate f.bits.length .writing i with
  | error e => simp [found, Except.map] at h
  | ok n =>
    simp only [found, Except.map, Except.ok.injEq] at h
    subst h
    exact List.length_set

theorem Flags.set_two (z n bit : Bool) (f : Flag) :
    Flags.set ⟨[z, n]⟩ f.position bit =
      .ok ⟨[if f = .zero then bit else z, if f = .negative then bit else n]⟩ := by
  cases f <;> rfl

theorem Flags.get_two (z n : Bool) (f : Flag) :
    Flags.get ⟨[z, n]⟩ f.position = .ok (if f = .zero then z else n) := by
  cases f <;> rfl

namespace Machine

variable {size : Nat} {m m' : Machine}

theorem selected_of_some {r : Register} (named : Register.ofId? m.demux = some r) :
    m.selected = .ok r := by
  simp only [selected, named]

theorem selected_of_none (unnamed : Register.ofId? m.demux = none) :
    m.selected = .error ((Fault.register m.demux).raised m.writing) := by
  simp only [selected, unnamed]

theorem selected_safe (m : Machine) :
    (∃ r, m.selected = .ok r) ∨ ∃ f : Fault, m.selected = .error (f.raised m.writing) := by
  unfold selected
  split
  · exact .inl ⟨_, rfl⟩
  · exact .inr ⟨_, rfl⟩

variable {k : MemoryBank}

theorem perform_select {b : Memory}
    (selected : (m.bank k).select k.name (m.buses.get k.wire) = .ok b) :
    m.perform (.select k) = .ok (m.setBank k b) := by
  delta perform
  simp only [selected]

theorem perform_select_error {f : Fault}
    (refused : (m.bank k).select k.name (m.buses.get k.wire) = .error f) :
    m.perform (.select k) = .error (f.raised m.writing) := by
  delta perform
  simp only [refused]

theorem perform_read (intact : (m.bank k).Intact size) :
    m.perform (.read k) =
      .ok { m with buses := m.buses.put k.wire ((m.bank k).cells.getD (m.bank k).latch 0) } := by
  delta perform
  simp only [Memory.read_eq intact]

theorem perform_store (intact : (m.bank k).Intact size) :
    m.perform (.store k) =
      .ok (m.setBank k { (m.bank k) with
        cells := (m.bank k).cells.setIfInBounds (m.bank k).latch (m.buses.get k.wire) }) := by
  delta perform
  simp only [Memory.store_eq intact]

theorem perform_recordFlag (h : m.WellFormed size) (f : Flag) :
    m.perform (.recordFlag f) =
      .ok { m with
        flags := ⟨[if f = .zero then f.holds m.buses.internal else m.flagBit .zero,
          if f = .negative then f.holds m.buses.internal else m.flagBit .negative]⟩ } := by
  delta perform
  simp only [Flags.record, h.flags_eq, Flags.set_two]

theorem perform_giveFlag (h : m.WellFormed size) (f : Flag) :
    m.perform (.giveFlag f) = .ok (m.putInternal (bitWord (m.flagBit f))) := by
  delta perform
  simp only [h.flags_eq, Flags.get_two]
  cases f <;> rfl

theorem perform_safe (h : m.WellFormed size) (op : MicroOp) :
    (∃ m', m.perform op = .ok m' ∧ m'.WellFormed size ∧ m.SameCourse m') ∨
      ∃ f : Fault, m.perform op = .error (f.raised m.writing) := by
  cases op with
  | giveSelected =>
    rcases m.selected_safe with ⟨r, hr⟩ | ⟨f, hf⟩
    · refine .inl ⟨m.putInternal (m.registers.get r), congrArg (Except.map _) hr, ?_, ?_⟩
      · exact ⟨h.main, h.status, h.flags⟩
      · exact ⟨rfl, rfl, rfl, rfl, rfl, rfl⟩
    · exact .inr ⟨f, congrArg (Except.map _) hf⟩
  | takeSelected =>
    rcases m.selected_safe with ⟨r, hr⟩ | ⟨f, hf⟩
    · refine .inl ⟨m.setRegister r m.buses.internal, congrArg (Except.map _) hr, ?_, ?_⟩
      · exact ⟨h.main, h.status, h.flags⟩
      · exact ⟨rfl, rfl, rfl, rfl, rfl, rfl⟩
    · exact .inr ⟨f, congrArg (Except.map _) hf⟩
  | select k =>
    cases selected : (m.bank k).select k.name (m.buses.get k.wire) with
    | error f => exact .inr ⟨f, perform_select_error selected⟩
    | ok b =>
      refine .inl ⟨m.setBank k b, perform_select selected, ?_, m.setBank_sameCourse k b⟩
      exact h.setBank k (fun cells intact => Memory.select_intact intact selected)
  | read k =>
    obtain ⟨cells, intact⟩ := h.bank k
    exact .inl ⟨_, perform_read intact, ⟨h.main, h.status, h.flags⟩, ⟨rfl, rfl, rfl, rfl, rfl, rfl⟩⟩
  | store k =>
    obtain ⟨cells, intact⟩ := h.bank k
    refine .inl ⟨_, perform_store intact, ?_, m.setBank_sameCourse k _⟩
    exact h.setBank k (fun cells intact => Memory.write_intact intact _ _)
  | recordFlag f =>
    exact .inl ⟨_, perform_recordFlag h f, ⟨h.main, h.status, rfl⟩, ⟨rfl, rfl, rfl, rfl, rfl, rfl⟩⟩
  | giveFlag f =>
    exact .inl ⟨_, perform_giveFlag h f, ⟨h.main, h.status, h.flags⟩,
      ⟨rfl, rfl, rfl, rfl, rfl, rfl⟩⟩
  | _ => exact .inl ⟨_, rfl, ⟨h.main, h.status, h.flags⟩, ⟨rfl, rfl, rfl, rfl, rfl, rfl⟩⟩

end Machine

end BusMachine
