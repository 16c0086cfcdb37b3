import BusMachine.Proofs.Machine.Invariant
import BusMachine.Proofs.Machine.Isolation

/-!
Bounded runs. A run calls for steps until one of them stops the machine or fails, or as many as
allowed have been made, and the calls of two runs, one after the other, are those of a single run.
Only a run that has failed does not go on where it was broken off.
-/
namespace BusMachine

variable {size : Nat} {m m' left : Machine} {r : StopReason} {e : DatapathError}

/-- A step that was called for: the machine on which it was made, and the answer. -/
structure StepCall where
  machine : Machine
  answer : Option StopReason

/-- The step found a machine that was not halted. -/
def StepCall.isLive (c : StepCall) : Bool := c.machine.phase ≠ .halted

namespace Control

/-- Steps made one after the other, from a machine to the one that they leave. -/
inductive Calls : Machine → List StepCall → Machine → Prop where
  | none (m : Machine) : Calls m [] m
  | step {m next left : Machine} {reason : Option StopReason} {calls : List StepCall} :
      Control.step m = .ok reason next → Calls next calls left → Calls m (⟨m, reason⟩ :: calls) left

/-- Steps that go on, fewer than `n`, and one that fails after them. -/
structure CallsFailing (n : Nat) (m : Machine) (e : DatapathError) (left : Machine) where
  calls : List StepCall
  last : Machine
  made : Calls m calls last
  few : calls.length < n
  goOn : ∀ c ∈ calls, c.answer = none
  failed : Control.step last = .error e left
  counted : left.steps = m.steps + calls.countP StepCall.isLive

/-- How the calls of a run of at most `n` steps end: all of them went on, or the last one
stopped. -/
inductive Ending (n : Nat) : List StepCall → StopReason → Prop where
  | timeout {calls : List StepCall} : calls.length = n → (∀ c ∈ calls, c.answer = none) →
      Ending n calls .timeout
  | stopped {before : List StepCall} {last : Machine} {r : StopReason} : before.length < n →
      (∀ c ∈ before, c.answer = none) → r ≠ .timeout → Ending n (before ++ [⟨last, some r⟩]) r

theorem Ending.cons {n : Nat} {calls : List StepCall} (h : Ending n calls r) (m : Machine) :
    Ending (n + 1) (⟨m, none⟩ :: calls) r := by
  cases h with
  | timeout length none =>
    apply Ending.timeout
    · simp [length]
    · simpa using none
  | @stopped before last _ length none other =>
    have earlier : ∀ c ∈ (⟨m, Option.none⟩ : StepCall) :: before, c.answer = Option.none := by
      simpa using none
    exact .stopped (Nat.succ_lt_succ length) earlier other

theorem Ending.at_once {n : Nat} (m : Machine) (other : r ≠ .timeout) :
    Ending (n + 1) [⟨m, some r⟩] r := by
  have earlier : ∀ c ∈ ([] : List StepCall), c.answer = none := by simp
  exact .stopped (Nat.succ_pos n) earlier other

/-- What a step leaves, also on a machine that has stopped before. -/
inductive Leaves (size : Nat) (m : Machine) :
    EStateM.Result DatapathError Machine (Option StopReason) → Prop where
  | goesOn {next : Machine} : m.phase ≠ .halted → next.Sound size → next.phase = .fetch →
      next.steps = m.steps + 1 → Leaves size m (.ok none next)
  | stops {next : Machine} {r : StopReason} : r ≠ .timeout → next.Sound size →
      next.phase = .halted →
      next.stop = some r → next.steps = m.steps + (if m.phase = .halted then 0 else 1) →
      Leaves size m (.ok (some r) next)
  | fails {next : Machine} {e : DatapathError} : m.phase ≠ .halted → next.Sound size →
      next.phase ≠ .halted →
      next.steps = m.steps → Leaves size m (.error e next)

theorem step_leaves (sound : m.Sound size) : Leaves size m (step m) := by
  have outcome := step_sound sound
  by_cases halted : m.phase = .halted
  · obtain ⟨r, stop, other⟩ := sound.reason halted
    rw [step_of_halted halted, stop]
    exact .stops other sound halted stop (by simp [halted])
  rcases step_by_rules sound.shape halted with ⟨reason, m', stepped, -, left, -⟩
    | ⟨m', stepped, -, broken, fails⟩
  · rw [stepped] at outcome ⊢
    cases reason with
    | none => exact .goesOn halted outcome.1 left.phase left.steps
    | some r =>
      exact .stops left.visible.reason outcome.1 left.phase left.stop (by simp [halted, left.steps])
  · rw [stepped] at outcome ⊢
    exact .fails halted outcome.1 fails.running broken.steps

theorem runFor_calls (n : Nat) (sound : m.Sound size) (ran : runFor n m = .ok r left) :
    left.Sound size ∧ ∃ calls, Calls m calls left ∧ Ending n calls r ∧
      left.steps = m.steps + calls.countP StepCall.isLive := by
  induction n generalizing m with
  | zero =>
    cases ran
    exact ⟨sound, [], .none _, .timeout rfl (by simp), rfl⟩
  | succ n ih =>
    have leaves := step_leaves sound
    cases stepped : step m with
    | error e next => cases (runFor_of_fails n stepped).symm.trans ran
    | ok reason next =>
      rw [stepped] at leaves
      cases leaves with
      | goesOn running sound' _ counted =>
        rw [runFor_of_goes_on n stepped] at ran
        obtain ⟨sound'', calls, made, ending, counted'⟩ := ih sound' ran
        refine ⟨sound'', ⟨m, none⟩ :: calls, .step stepped made, ending.cons m, ?_⟩
        simp [counted', counted, running, StepCall.isLive]
        omega
      | @stops _ q other sound' _ _ counted =>
        cases (runFor_of_stops n stepped).symm.trans ran
        refine ⟨sound', [⟨m, some r⟩], .step stepped (.none left), .at_once m other, ?_⟩
        by_cases halted : m.phase = .halted <;> simp [counted, halted, StepCall.isLive]

theorem runFor_failing (n : Nat) (sound : m.Sound size) (ran : runFor n m = .error e left) :
    Nonempty (CallsFailing n m e left) := by
  induction n generalizing m with
  | zero => cases ran
  | succ n ih =>
    have leaves := step_leaves sound
    cases stepped : step m with
    | error e' next =>
      rw [stepped] at leaves
      cases (runFor_of_fails n stepped).symm.trans ran
      cases leaves with
      | fails _ _ _ counted =>
        exact ⟨{ calls := [], last := m, made := .none m, few := Nat.succ_pos n, goOn := by simp
                 failed := stepped, counted := counted }⟩
    | ok reason next =>
      rw [stepped] at leaves
      cases leaves with
      | stops => cases (runFor_of_stops n stepped).symm.trans ran
      | goesOn running sound' _ counted =>
        rw [runFor_of_goes_on n stepped] at ran
        obtain ⟨later⟩ := ih sound' ran
        refine ⟨{
          calls := ⟨m, none⟩ :: later.calls
          last := later.last
          made := .step stepped later.made
          few := Nat.succ_lt_succ later.few
          goOn := by simpa using later.goOn
          failed := later.failed
          counted := ?_ }⟩
        simp [later.counted, counted, running, StepCall.isLive]
        omega

theorem runFor_timeout_iff (n : Nat) (sound : m.Sound size) :
    runFor n m = .ok .timeout left ↔ answers n m = .ok (List.replicate n none) left := by
  induction n generalizing m with
  | zero => simp [runFor, answers, pure, EStateM.pure]
  | succ n ih =>
    have leaves := step_leaves sound
    cases stepped : step m with
    | error e next => simp [runFor_of_fails n stepped, answers, bind_of_error stepped]
    | ok reason next =>
      rw [stepped] at leaves
      rw [answers, bind_of_ok stepped]
      cases leaves with
      | goesOn _ sound' =>
        rw [runFor_of_goes_on n stepped, ih sound']
        cases run : answers n next <;>
          simp [bind, EStateM.bind, pure, EStateM.pure, run, List.replicate_succ]
      | stops other =>
        rw [runFor_of_stops n stepped]
        cases run : answers n next <;>
          simp [bind, EStateM.bind, pure, EStateM.pure, run, List.replicate_succ, other]

theorem runFor_timeout_running (n : Nat) (sound : m.Sound size)
    (ran : runFor n m = .ok .timeout left) (running : m.phase ≠ .halted) :
    left.phase ≠ .halted ∧ (m.phase = .fetch ∨ 0 < n → left.phase = .fetch) := by
  induction n generalizing m with
  | zero =>
    cases ran
    exact ⟨running, fun between => between.resolve_right (Nat.lt_irrefl 0)⟩
  | succ n ih =>
    have leaves := step_leaves sound
    cases stepped : step m with
    | error e next => cases (runFor_of_fails n stepped).symm.trans ran
    | ok reason next =>
      rw [stepped] at leaves
      cases leaves with
      | goesOn _ sound' phase =>
        rw [runFor_of_goes_on n stepped] at ran
        obtain ⟨running', fetching⟩ := ih sound' ran (by simp [phase])
        exact ⟨running', fun _ => fetching (.inl phase)⟩
      | stops other =>
        cases (runFor_of_stops n stepped).symm.trans ran
        exact absurd rfl other

theorem runFor_add (k : Nat) {n : Nat} (positive : 0 < n) (sound : m.Sound size)
    (ran : runFor k m = .ok r left) : runFor (k + n) m = runFor n left := by
  induction k generalizing m with
  | zero =>
    cases ran
    rw [Nat.zero_add]
  | succ k ih =>
    have more : k + 1 + n = k + n + 1 := by omega
    have leaves := step_leaves sound
    cases stepped : step m with
    | error e next => cases (runFor_of_fails k stepped).symm.trans ran
    | ok reason next =>
      rw [stepped] at leaves
      cases leaves with
      | goesOn _ sound' =>
        rw [runFor_of_goes_on k stepped] at ran
        rw [more, runFor_of_goes_on (k + n) stepped, ih sound' ran]
      | stops _ _ halted stop =>
        -- The first run has stopped, so the second one meets a halted machine.
        cases (runFor_of_stops k stepped).symm.trans ran
        rw [more, runFor_of_stops (k + n) stepped, runFor_of_halted halted stop positive]

theorem runFor_add_of_fails (k n : Nat) (ran : runFor k m = .error e left) :
    runFor (k + n) m = .error e left := by
  induction k generalizing m with
  | zero => cases ran
  | succ k ih =>
    have more : k + 1 + n = k + n + 1 := by omega
    rw [more]
    cases stepped : step m with
    | error e' next => rwa [runFor_of_fails (k + n) stepped, ← runFor_of_fails k stepped]
    | ok reason next =>
      cases reason with
      | none =>
        rw [runFor_of_goes_on k stepped] at ran
        rw [runFor_of_goes_on (k + n) stepped, ih ran]
      | some r => cases (runFor_of_stops k stepped).symm.trans ran

end Control

/-- Two runs in a row do what one run of both their times does, and answer what it answers. A run
answers with the first of its steps that stops, and steps are counted where the machine was not
halted. A run fails with the first of its steps that fails, and so does any longer one. -/
theorem bounded_runs_compose {size : Int} (reachable : m.Reachable size) {k n : Int} (start : 0 ≤ k)
    (positive : 1 ≤ n) :
    (∀ r middle, Control.run (some k) m = some (.ok r middle) →
      Control.run (some n) middle = Control.run (some (k + n)) m ∧
      (∃ calls, Control.Calls m calls middle ∧ Control.Ending k.toNat calls r ∧
        middle.steps = m.steps + calls.countP StepCall.isLive) ∧
      (r = .timeout ↔ Control.answers k.toNat m = .ok (List.replicate k.toNat none) middle) ∧
      (r = .timeout → m.phase ≠ .halted → middle.phase ≠ .halted ∧ middle.stop = none ∧
        (m.phase = .fetch ∨ 0 < k → middle.phase = .fetch))) ∧
    (∀ e left, Control.run (some k) m = some (.error e left) →
      Control.run (some (k + n)) m = some (.error e left) ∧
      Nonempty (Control.CallsFailing k.toNat m e left)) ∧
    (m.writing = .total → ∃ r middle r' left, Control.run (some k) m = some (.ok r middle) ∧
      Control.run (some (k + n)) m = some (.ok r' left)) := by
  have sound := reachable.sound
  have both : (k + n).toNat = k.toNat + n.toNat := Int.toNat_add start (by omega)
  refine ⟨?_, ?_, ?_⟩
  · intro r middle ran
    have ran := Option.some.inj ran
    obtain ⟨sound', calls, made, ending, counted⟩ := Control.runFor_calls k.toNat sound ran
    refine ⟨?_, ⟨calls, made, ending, counted⟩, ?_, ?_⟩
    · simp only [Control.run, both]
      rw [Control.runFor_add k.toNat (by omega) sound ran]
    · rw [← Control.runFor_timeout_iff k.toNat sound, ran]
      simp
    · rintro rfl running
      obtain ⟨running', fetching⟩ := Control.runFor_timeout_running k.toNat sound ran running
      exact ⟨running', sound'.stop running', fun between => fetching (between.imp_right (by omega))⟩
  · intro e left ran
    have ran := Option.some.inj ran
    refine ⟨?_, Control.runFor_failing k.toNat sound ran⟩
    simp only [Control.run, both]
    rw [Control.runFor_add_of_fails k.toNat n.toNat ran]
  · intro total
    obtain ⟨r, middle, ran⟩ := Control.runFor_of_total k.toNat sound.shape total
    obtain ⟨r', left, ran'⟩ := Control.runFor_of_total (k + n).toNat sound.shape total
    exact ⟨r, middle, r', left, congrArg some ran, congrArg some ran'⟩

/-- A machine that counts once and then meets the halt word. -/
def countsOnce : Machine := (HostOperation.load [10, 1, -1]).after { main := .blank 4 }

/-- The answer of a run, if it gives one. -/
def runAnswer : Option (EStateM.Result DatapathError Machine StopReason) → Option StopReason
  | some (.ok r _) => some r
  | _ => none

theorem eq_ok_of_runAnswer {o : Option (EStateM.Result DatapathError Machine StopReason)}
    (answer : runAnswer o = some r) : ∃ left, o = some (.ok r left) := by
  rcases o with _ | ⟨q, left⟩ | ⟨e, left⟩
  · cases answer
  · obtain rfl : q = r := Option.some.inj answer
    exact ⟨left, rfl⟩
  · cases answer

/-- The run that stops with the last step that it is allowed. -/
theorem stops_with_last_step :
    countsOnce.Reachable 4 ∧ (0 : Int) ≤ 2 ∧ (1 : Int) ≤ 3 ∧
      ∃ middle left calls, Control.run (some 2) countsOnce = some (.ok .halt middle) ∧
        Control.run (some 3) middle = some (.ok .halt left) ∧
        Control.run (some 5) countsOnce = some (.ok .halt left) ∧
        Control.Calls countsOnce calls middle ∧ Control.Ending 2 calls .halt := by
  have reachable : countsOnce.Reachable 4 := .after _ (.new {} rfl)
  have early : runAnswer (Control.run (some 2) countsOnce) = some .halt := by decide +kernel
  have late : runAnswer (Control.run (some 5) countsOnce) = some .halt := by decide +kernel
  obtain ⟨middle, first⟩ := eq_ok_of_runAnswer early
  obtain ⟨left, both⟩ := eq_ok_of_runAnswer late
  obtain ⟨second, ⟨calls, made, ending, -⟩, -⟩ :=
    (bounded_runs_compose reachable (k := 2) (n := 3) (by decide) (by decide)).1 .halt middle first
  exact ⟨reachable, by decide, by decide, middle, left, calls, first, second.trans both, both, made,
    ending⟩

/-- The one step that was called for is not counted, and gives no answer that the run could give. -/
theorem long_register_id_is_not_counted :
    (incrementsRegister (10 ^ 4300)).Reachable 4 ∧
      (incrementsRegister (10 ^ 4300)).phase ≠ .halted ∧
      ∃ left, Control.run (some 1) (incrementsRegister (10 ^ 4300)) =
        some (.error .unwritable left) ∧
        left.steps = (incrementsRegister (10 ^ 4300)).steps := by
  have long := Numeral.not_isWritable_pow
  generalize (10 : Int) ^ 4300 = w at long ⊢
  obtain ⟨left, failed, broken, -⟩ := step_of_unwritable_id long
  exact ⟨incrementsRegister_reachable w, incrementsRegister_running w, left,
    congrArg some (Control.runFor_of_fails 0 failed), broken.steps⟩

end BusMachine
