import BusMachine.Proofs.Machine.InstructionSet

/-!
What a program cannot see does not matter. Buses, arithmetic registers, latches, the demultiplexer
and the status memory may hold anything when a step begins: two machines that look alike go on
alike, and where one of them cannot report a fault the other cannot either.
-/
namespace BusMachine

variable {size : Nat} {a b a' b' : Machine} {r q : Option StopReason}

/-- The machines differ at most in the datapath behind registers, flags and cells, and in
their records. -/
structure Machine.Alike (a b : Machine) : Prop where
  visible : a.visible = b.visible
  phase : a.phase = b.phase
  stop : a.stop = b.stop
  writing : a.writing = b.writing

namespace Machine.Alike

theorem symm (h : a.Alike b) : b.Alike a :=
  ⟨h.visible.symm, h.phase.symm, h.stop.symm, h.writing.symm⟩

theorem registers (h : a.Alike b) : a.registers = b.registers :=
  congrArg Visible.registers h.visible

theorem lineTooLong (h : a.Alike b) (traced : a.tracing = b.tracing) (long : a.LineTooLong) :
    b.LineTooLong := by
  obtain ⟨on, inside, number⟩ := long
  rw [h.visible, h.registers] at inside
  rw [h.visible, h.writing] at number
  exact ⟨traced.symm.trans on, inside, number⟩

theorem faultTooLong (h : a.Alike b) (long : a.FaultTooLong) : b.FaultTooLong := by
  unfold FaultTooLong at long
  rwa [h.visible, h.writing] at long

theorem stepped (h : a.Alike b) (left : a.Stepped r a') (right : b.Stepped q b') :
    r = q ∧ a'.Alike b' := by
  obtain ⟨rfl, seen⟩ := left.visible.unique (h.visible ▸ right.visible)
  refine ⟨rfl, seen, ?_, ?_, ?_⟩
  · rw [left.phase, right.phase]
  · rw [left.stop, right.stop, h.stop]
  · rw [left.writing, right.writing, h.writing]

theorem fails (h : a.Alike b) (traced : a.tracing = b.tracing) (brokenA : a.BrokenOff a')
    (brokenB : b.BrokenOff b') (left : a.Fails a') (right : b.Fails b') : a'.Alike b' := by
  have stop : a'.stop = b'.stop := by rw [brokenA.stop, brokenB.stop, h.stop]
  have writing : a'.writing = b'.writing := by rw [brokenA.writing, brokenB.writing, h.writing]
  cases left with
  | line long phase seen =>
    cases right with
    | line _ phase' seen' =>
      exact ⟨by rw [seen, seen', h.visible], phase.trans phase'.symm, stop, writing⟩
    | fault line => exact absurd (h.lineTooLong traced long) line
  | fault line faulting _ phase =>
    cases right with
    | line long => exact absurd (h.symm.lineTooLong traced.symm long) line
    | fault _ faulting' _ phase' =>
      have seen := (faulting.unique (h.visible ▸ faulting')).2
      exact ⟨seen, phase.trans phase'.symm, stop, writing⟩

end Machine.Alike

namespace Control

/-- The answers to that many steps, each made also where an earlier one has stopped the machine. -/
def answers : Nat → Control (List (Option StopReason))
  | 0 => return []
  | n + 1 => do
    let reason ← step
    let reasons ← answers n
    return reason :: reasons

/-- The outcomes of that many steps, each made also where an earlier one has stopped the
machine or failed. -/
def outcomes : Nat → Machine → List (Except DatapathError (Option StopReason)) × Machine
  | 0, m => ([], m)
  | n + 1, m =>
    match step m with
    | .ok reason next => (.ok reason :: (outcomes n next).1, (outcomes n next).2)
    | .error e next => (.error e :: (outcomes n next).1, (outcomes n next).2)

variable {m next left : Machine} {reason : Option StopReason} {reasons : List (Option StopReason)}
  {n : Nat}

theorem answers_of_step (stepped : step m = .ok reason next)
    (rest : answers n next = .ok reasons left) :
    answers (n + 1) m = .ok (reason :: reasons) left := by
  rw [answers, bind_of_ok stepped, bind_of_ok rest]
  rfl

theorem exists_of_answers (h : answers (n + 1) m = .ok reasons left) :
    ∃ reason next later, step m = .ok reason next ∧ answers n next = .ok later left ∧
      reasons = reason :: later := by
  rw [answers] at h
  cases stepped : step m with
  | error e next =>
    rw [bind_of_error stepped] at h
    cases h
  | ok reason next =>
    rw [bind_of_ok stepped] at h
    cases rest : answers n next with
    | error e last =>
      rw [bind_of_error rest] at h
      cases h
    | ok later last =>
      rw [bind_of_ok rest] at h
      cases h
      exact ⟨reason, next, later, rfl, rest, rfl⟩

theorem outcomes_of_step (stepped : step m = .ok reason next) (n : Nat) :
    outcomes (n + 1) m = (.ok reason :: (outcomes n next).1, (outcomes n next).2) := by
  rw [outcomes, stepped]

theorem outcomes_of_fails {e : DatapathError} (stepped : step m = .error e next) (n : Nat) :
    outcomes (n + 1) m = (.error e :: (outcomes n next).1, (outcomes n next).2) := by
  rw [outcomes, stepped]

theorem answers_of_total (shape : m.WellFormed size) (total : m.writing = .total) (n : Nat) :
    ∃ reasons left, answers n m = .ok reasons left := by
  induction n generalizing m with
  | zero => exact ⟨[], m, rfl⟩
  | succ n ih =>
    obtain ⟨reason, next, stepped, shape', total'⟩ := step_of_total shape total
    obtain ⟨reasons, left, rest⟩ := ih shape' total'
    exact ⟨_, left, answers_of_step stepped rest⟩

theorem step_alike (shapeA : a.WellFormed size) (shapeB : b.WellFormed size) (alike : a.Alike b)
    (stepA : step a = .ok r a') (stepB : step b = .ok q b') :
    a'.WellFormed size ∧ b'.WellFormed size ∧ r = q ∧ a'.Alike b' := by
  by_cases halted : a.phase = .halted
  · cases stepA.symm.trans (step_of_halted halted)
    cases stepB.symm.trans (step_of_halted (alike.phase ▸ halted))
    exact ⟨shapeA, shapeB, alike.stop, alike⟩
  · obtain ⟨shapeA', left⟩ := stepped_of_ok shapeA halted stepA
    obtain ⟨shapeB', right⟩ := stepped_of_ok shapeB (alike.phase ▸ halted) stepB
    exact ⟨shapeA', shapeB', alike.stepped left right⟩

theorem answers_alike (shapeA : a.WellFormed size) (shapeB : b.WellFormed size) (alike : a.Alike b)
    (n : Nat) {rs qs : List (Option StopReason)} (ranA : answers n a = .ok rs a')
    (ranB : answers n b = .ok qs b') :
    rs = qs ∧ a'.Alike b' := by
  induction n generalizing a b rs qs with
  | zero =>
    cases ranA
    cases ranB
    exact ⟨rfl, alike⟩
  | succ n ih =>
    obtain ⟨r, a₁, rs, stepA, restA, rfl⟩ := exists_of_answers ranA
    obtain ⟨q, b₁, qs, stepB, restB, rfl⟩ := exists_of_answers ranB
    obtain ⟨shapeA₁, shapeB₁, rfl, alike₁⟩ := step_alike shapeA shapeB alike stepA stepB
    obtain ⟨rfl, alike'⟩ := ih shapeA₁ shapeB₁ alike₁ restA restB
    exact ⟨rfl, alike'⟩

/-- If both machines are traced or neither is, their steps come to the same also where they fail. -/
theorem outcomes_alike (shapeA : a.WellFormed size) (shapeB : b.WellFormed size) (alike : a.Alike b)
    (traced : a.tracing = b.tracing) (n : Nat) :
    (outcomes n a).1 = (outcomes n b).1 ∧ (outcomes n a).2.Alike (outcomes n b).2 := by
  induction n generalizing a b with
  | zero => exact ⟨rfl, alike⟩
  | succ n ih =>
    by_cases halted : a.phase = .halted
    · rw [outcomes_of_step (step_of_halted halted),
        outcomes_of_step (step_of_halted (alike.phase ▸ halted)), alike.stop]
      obtain ⟨same, alike'⟩ := ih shapeA shapeB alike traced
      exact ⟨congrArg (List.cons _) same, alike'⟩
    rcases step_by_rules shapeA halted with
      ⟨r, a₁, stepA, shapeA₁, left, lineA, faultA⟩ | ⟨a₁, stepA, shapeA₁, brokenA, failsA⟩
    · rcases step_by_rules shapeB (alike.phase ▸ halted) with
        ⟨q, b₁, stepB, shapeB₁, right, -⟩ | ⟨_, _, _, _, failsB⟩
      · obtain ⟨rfl, alike₁⟩ := alike.stepped left right
        have traced₁ : a₁.tracing = b₁.tracing := by rw [left.tracing, right.tracing, traced]
        obtain ⟨same, alike'⟩ := ih shapeA₁ shapeB₁ alike₁ traced₁
        rw [outcomes_of_step stepA, outcomes_of_step stepB]
        exact ⟨congrArg (List.cons _) same, alike'⟩
      · cases failsB with
        | line long => exact absurd (alike.symm.lineTooLong traced.symm long) lineA
        | fault _ faulting denied =>
          exact absurd (alike.symm.faultTooLong ⟨_, _, faulting, denied⟩) faultA
    · rcases step_by_rules shapeB (alike.phase ▸ halted) with
        ⟨_, _, _, _, _, lineB, faultB⟩ | ⟨b₁, stepB, shapeB₁, brokenB, failsB⟩
      · cases failsA with
        | line long => exact absurd (alike.lineTooLong traced long) lineB
        | fault _ faulting denied =>
          exact absurd (alike.faultTooLong ⟨_, _, faulting, denied⟩) faultB
      · have alike₁ := alike.fails traced brokenA brokenB failsA failsB
        have traced₁ : a₁.tracing = b₁.tracing := by rw [brokenA.tracing, brokenB.tracing, traced]
        obtain ⟨same, alike'⟩ := ih shapeA₁ shapeB₁ alike₁ traced₁
        rw [outcomes_of_fails stepA, outcomes_of_fails stepB]
        exact ⟨congrArg (List.cons _) same, alike'⟩

end Control

/-- Machines that look alike answer alike to any number of steps, wherever both answer, and
they answer if every number can be written. If both are traced or neither is, their steps
also fail alike. -/
theorem stale_values_are_unseen (shapeA : a.WellFormed size) (shapeB : b.WellFormed size)
    (alike : a.Alike b) (n : Nat) :
    (∀ rs qs a' b', Control.answers n a = .ok rs a' → Control.answers n b = .ok qs b' →
      rs = qs ∧ a'.Alike b') ∧
    (a.writing = .total → ∃ reasons a' b', Control.answers n a = .ok reasons a' ∧
      Control.answers n b = .ok reasons b' ∧ a'.Alike b') ∧
    (a.tracing = b.tracing → (Control.outcomes n a).1 = (Control.outcomes n b).1 ∧
      (Control.outcomes n a).2.Alike (Control.outcomes n b).2) := by
  refine ⟨?_, ?_, fun traced => Control.outcomes_alike shapeA shapeB alike traced n⟩
  · intro rs qs a' b' ranA ranB
    exact Control.answers_alike shapeA shapeB alike n ranA ranB
  · intro total
    obtain ⟨rs, a', ranA⟩ := Control.answers_of_total shapeA total n
    obtain ⟨qs, b', ranB⟩ := Control.answers_of_total shapeB (alike.writing ▸ total) n
    obtain ⟨rfl, alike'⟩ := Control.answers_alike shapeA shapeB alike n ranA ranB
    exact ⟨rs, a', b', ranA, ranB, alike'⟩

/-- A machine that jumps on a clear flag, so that the branch goes through the status memory. -/
def branches : Machine := HostOperation.after (.load [15, 3, -1, 18, 1, 9, 0]) { main := .blank 8 }

/-- The same machine with other words everywhere behind the registers. -/
def branchesStale : Machine :=
  { branches with
    buses := ⟨7, -8, 9⟩
    alu := ⟨5, 6⟩
    demux := 99
    main := { branches.main with latch := 3 }
    status := ⟨#[40, 50], 1⟩ }

theorem stale_branch_is_unseen :
    branches.WellFormed 8 ∧ branchesStale.WellFormed 8 ∧ branches.Alike branchesStale ∧
      (Control.outcomes 3 branches).1 = [.ok none, .ok (some .fault), .ok (some .fault)] ∧
      (Control.outcomes 3 branchesStale).1 = [.ok none, .ok (some .fault), .ok (some .fault)] ∧
      (Control.outcomes 3 branches).2.Alike (Control.outcomes 3 branchesStale).2 := by
  have shape : branches.WellFormed 8 := ⟨⟨rfl, by decide⟩, ⟨rfl, by decide⟩, rfl⟩
  have stale : branchesStale.WellFormed 8 := ⟨⟨rfl, by decide⟩, ⟨rfl, by decide⟩, rfl⟩
  have alike : branches.Alike branchesStale := ⟨rfl, rfl, rfl, rfl⟩
  have three : (Control.outcomes 3 branches).1 =
    [.ok none, .ok (some .fault), .ok (some .fault)] := by
    decide +kernel
  obtain ⟨same, left⟩ := (stale_values_are_unseen shape stale alike 3).2.2 rfl
  exact ⟨shape, stale, alike, three, same.symm.trans three, left⟩

/-- A machine that is about to increment the register of an id, with other words behind the
registers. -/
def incrementsRegisterStale (id : Int) : Machine :=
  { incrementsRegister id with buses := ⟨7, -8, 9⟩, alu := ⟨5, 6⟩, demux := 99 }

theorem long_register_id_is_not_answered :
    (incrementsRegister (10 ^ 4300)).WellFormed 4 ∧
      (incrementsRegisterStale (10 ^ 4300)).WellFormed 4 ∧
      (incrementsRegister (10 ^ 4300)).Alike (incrementsRegisterStale (10 ^ 4300)) ∧
      (∀ reason m', Control.step (incrementsRegister (10 ^ 4300)) ≠ .ok reason m') ∧
      (incrementsRegister (10 ^ 4300)).phase ≠ .halted ∧
      ∃ v, (incrementsRegister (10 ^ 4300)).visible.Step (some .fault) v := by
  have long := Numeral.not_isWritable_pow
  generalize (10 : Int) ^ 4300 = w at long ⊢
  have shape := (incrementsRegister_reachable w).sound.shape
  obtain ⟨_, failed, -, -, rule⟩ := step_of_unwritable_id long
  refine ⟨shape, ⟨shape.main, shape.status, shape.flags⟩, ⟨rfl, rfl, rfl, rfl⟩, ?_,
    incrementsRegister_running w, _, rule⟩
  intro reason m' stepped
  cases failed.symm.trans stepped

end BusMachine
