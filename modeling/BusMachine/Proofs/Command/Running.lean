import BusMachine.Proofs.Command.Session
import BusMachine.Proofs.Machine.Loading

/-!
Running an executable from the command line. What is printed and the exit code depend on the words,
the options and the log level alone; the machine runs as the control unit runs it, and nothing but a
number with too many digits to be written, or a machine that never stops, keeps the run from its
exit code.
-/
namespace BusMachine.Command

open Disassembly

/-- A number had too many digits to be written. -/
inductive Failure.Unwritable : Failure → Prop where
  | number : Unwritable (.numeral .unwritable)
  | row : Unwritable (.memory .unwritable)
  | step : Unwritable (.datapath .unwritable)

def exitCode (reason : StopReason) : Nat := if reason = .halt then 0 else 2

/-- The limit that a limit of the control unit is asked for with. -/
def StepLimit.ofSteps : Option Int → StepLimit
  | none => .unlimited
  | some n => .atMost n

namespace Action

variable {size : Nat} {m next : Machine} {words : List Int} {options : RunOptions} {D : Prop}
  {s s' t : Session} {l : Except Failure (StopReason × Machine) × Session}

theorem orFail_mapError {ε ε' α : Type} (wrap : ε' → Failure) (f : ε → ε') (x : Except ε α) :
    orFail wrap (x.mapError f) = orFail (wrap ∘ f) x := by
  cases x <;> rfl

theorem ends_logInstruction (shape : m.WellFormed size) :
    Ends (logInstruction m) (fun _ => True) Failure.Unwritable D := by
  rw [logInstruction]
  split
  · next after fetched =>
    by_cases inside : m.visible.Inside m.registers.pc
    · obtain ⟨_, fetched', -, -, -, seen⟩ := Control.fetch_inside_safe shape inside
      cases fetched.symm.trans fetched'
      obtain ⟨d, decoded⟩ := Visible.decodeAt_shown inside
      have line := Machine.instructionLine_eq seen decoded
      rw [show m.visible.registers.pc = m.registers.pc from rfl] at line
      rw [line, orFail_mapError]
      exact (ends_orFail_require (P := fun _ => True) _ _ trivial .step).bind (fun _ _ =>
        ends_log _ _ _)
    · rw [Control.fetch_of_outside inside] at fetched
      cases fetched
  · exact ends_pure trivial

theorem ends_logFault (m : Machine) : Ends (logFault m) (fun _ => True) Failure.Unwritable D := by
  rw [logFault]
  split
  · split
    · exact ends_log _ _ _
    · exact ends_pure trivial
  · exact ends_pure trivial

theorem ends_step (sound : m.Sound size) :
    Ends (step m) (fun r => Control.step m = .ok r.1 r.2) Failure.Unwritable D := by
  rw [step]
  refine ends_keeps .debug (g := fun kept => if (m.tracing || kept) = true then
    logInstruction m >>= _ else _)
    (fun kept => (ends_logInstruction sound.shape).orSkip ?_ _)
  cases stepped : Control.step m with
  | error e next =>
    obtain rfl := Control.step_error sound stepped
    exact ends_throw .step
  | ok reason next =>
    cases reason with
    | none => exact ends_pure rfl
    | some r =>
      refine (ends_logFault m).orSkip ?_ _
      exact (ends_log _ _ _).bind (fun _ _ => ends_pure rfl)

theorem step_keeps_sound {reason : Option StopReason} (sound : m.Sound size)
    (stepped : Control.step m = .ok reason next) : next.Sound size := by
  have outcome := Control.step_sound sound
  rw [stepped] at outcome
  exact outcome.1

theorem ends_runFor (n made : Nat) (sound : m.Sound size) :
    Ends (runFor made m n) (fun r => Control.runFor n m = .ok r.1 r.2) Failure.Unwritable D := by
  induction n generalizing made m with
  | zero => exact (ends_log _ _ _).bind (fun _ _ => ends_pure rfl)
  | succ n ih =>
    rw [runFor]
    refine (ends_step sound).bind ?_
    rintro ⟨reason, next⟩ stepped
    cases reason with
    | none =>
      rw [Control.runFor_of_goes_on n stepped]
      exact ih (made + 1) (step_keeps_sound sound stepped)
    | some r => exact ends_pure (Control.runFor_of_stops n stepped)

section

variable {r : StopReason} {e : Failure}

theorem runOn_of_goes_on (stepped : step m s = some (.ok (none, next), s')) :
    s.runOn m = s'.runOn next := by
  rw [Session.runOn, stepped]
  rfl

theorem runOn_of_stops (stepped : step m s = some (.ok (some r, next), s')) :
    s.runOn m = some (.ok (r, next), s') := by
  rw [Session.runOn, stepped]
  rfl

theorem runOn_of_fails (stepped : step m s = some (.error e, s')) :
    s.runOn m = some (.error e, s') := by
  rw [Session.runOn, stepped]
  rfl

end

/-- A run that ends in one session ends in every session that is alike. -/
theorem runOn_shared (sound : m.Sound size) (alike : s.Alike t) (ran : s.runOn m = some l) :
    ∃ r, t.runOn m = some r ∧
      Shared s t (fun r => m.runOn = some (.ok r.1 r.2)) Failure.Unwritable l r := by
  refine Session.runOn.partial_correctness (fun m s l => ∀ t, m.Sound size → s.Alike t →
    ∃ r, t.runOn m = some r ∧
      Shared s t (fun r => m.runOn = some (.ok r.1 r.2)) Failure.Unwritable l r)
    ?_ m s l ran t sound alike
  intro run ih m s l ran t sound alike
  obtain ⟨o, stepped, rest⟩ := Option.bind_eq_some_iff.mp ran
  rcases ends_step (D := False) sound s t alike with ⟨o', p, left, right, shared⟩ | ⟨-, -, never⟩
  · cases stepped.symm.trans left
    cases shared with
    | @value a s' t' follow answered =>
      obtain ⟨reason, next⟩ := a
      cases reason with
      | none =>
        obtain ⟨r, ended, shared⟩ :=
          ih next s' l rest t' (step_keeps_sound sound answered) follow.alike
        have same : m.runOn = next.runOn := by rw [Machine.runOn, answered]
        rw [runOn_of_goes_on right, same]
        exact ⟨r, ended, shared.after follow⟩
      | some reason =>
        have stopped : m.runOn = some (.ok reason next) := by rw [Machine.runOn, answered]
        cases rest
        exact ⟨_, runOn_of_stops right, .value follow stopped⟩
    | failure follow failure =>
      cases rest
      exact ⟨_, runOn_of_fails right, .failure follow failure⟩
  · exact never.elim

/-- A run that ends for the control unit ends in every session without a log file. -/
theorem exists_runOn {r : EStateM.Result DatapathError Machine StopReason} (sound : m.Sound size)
    (unlogged : s.logFile = none) (ran : m.runOn = some r) : ∃ l, s.runOn m = some l := by
  refine Machine.runOn.partial_correctness
    (fun m _ => ∀ s : Session, m.Sound size → s.logFile = none → ∃ l, s.runOn m = some l)
    ?_ m r ran s sound unlogged
  intro run ih m r ran s sound unlogged
  rcases ends_step (D := False) sound s s ⟨rfl, rfl, unlogged, unlogged⟩ with
    ⟨l, _, stepped, -, shared⟩ | ⟨-, -, never⟩
  · cases shared with
    | @value a s' _ follow answered =>
      obtain ⟨reason, next⟩ := a
      simp only [answered] at ran
      cases reason with
      | none =>
        rw [runOn_of_goes_on stepped]
        exact ih next r ran s' (step_keeps_sound sound answered) follow.alike.unlogged
      | some reason => exact ⟨_, runOn_of_stops stepped⟩
    | failure => exact ⟨_, runOn_of_fails stepped⟩
  · exact never.elim

theorem ends_runOn (sound : m.Sound size) :
    Ends (Session.runOn m) (fun r => m.runOn = some (.ok r.1 r.2)) Failure.Unwritable
      (m.runOn = none) := by
  intro s t alike
  cases left : s.runOn m with
  | some l =>
    obtain ⟨r, right, shared⟩ := runOn_shared sound alike left
    exact .inl ⟨l, r, rfl, right, shared⟩
  | none =>
    refine .inr ⟨rfl, ?_, ?_⟩
    · cases right : t.runOn m with
      | none => rfl
      | some r =>
        obtain ⟨l, ended, -⟩ := runOn_shared sound alike.symm right
        cases left.symm.trans ended
    · cases ran : m.runOn with
      | none => rfl
      | some r =>
        obtain ⟨l, ended⟩ := exists_runOn sound alike.unlogged ran
        cases left.symm.trans ended

/-- The run ends as that of the control unit with the same limit. -/
theorem ends_runMachine (sound : m.Sound size) (limit : Option Int) :
    Ends (runMachine (.ofSteps limit) m)
    (fun r => Control.run limit m = some (.ok r.1 r.2)) Failure.Unwritable
      (Control.run limit m = none) := by
  cases limit with
  | none => exact ends_runOn sound
  | some n =>
    exact (ends_runFor n.toNat 0 sound).mono (fun _ ran => congrArg some ran) (fun _ long => long)

theorem ends_dump (bank : Memory) (k : Writing) :
    Ends (orFail .memory (bank.dump k 0 none 8)) (fun _ => True) Failure.Unwritable D := by
  have filled : ∃ rows, bank.rows 0 none 8 = .ok rows := ⟨_, rfl⟩
  obtain ⟨rows, filled⟩ := filled
  rw [Memory.dump, filled]
  simp only [bind, Except.bind]
  split
  · exact ends_orFail_ok trivial
  · exact ends_orFail_error .row

/-- What is printed after a run, and the exit code. -/
def report (options : RunOptions) (reason : StopReason) (m : Machine) : Action Nat := do
  if options.trace then print m.traceText
  print ("Stopped: " ++ reason.name ++ " after " ++ toString m.steps ++ " steps")
  print (← orFail .numeral m.registerDump)
  if options.dump then print (← orFail .memory (m.main.dump m.writing 0 none 8))
  return if reason = .halt then 0 else 2

theorem ends_report (options : RunOptions) (reason : StopReason) (m : Machine) :
    Ends (report options reason m) (· = exitCode reason) Failure.Unwritable D := by
  rw [report]
  dsimp only
  refine (ends_print _).orSkip ((ends_print _).bind (fun _ _ => ?_)) _
  refine (ends_orFail_require (P := fun _ => True) _ _ trivial .number).bind (fun _ _ => ?_)
  refine (ends_print _).bind (fun _ _ => ?_)
  split
  · exact (ends_dump _ _).bind (fun _ _ => (ends_print _).bind (fun _ _ => ends_pure rfl))
  · exact ends_pure rfl

theorem ends_runAndReport (options : RunOptions) (limit : Option Int) (sound : m.Sound size) :
    Ends (do let (reason, left) ← runMachine (.ofSteps limit) m; report options reason left)
      (fun code => ∃ reason left, Control.run limit m = some (.ok reason left) ∧
        code = exitCode reason)
      Failure.Unwritable (Control.run limit m = none) :=
  (ends_runMachine sound limit).bind (fun r ran => (ends_report options r.1 r.2).mono
    (fun _ code => ⟨r.1, r.2, ran, code⟩) (fun _ unwritable => unwritable))

variable {storage : Option Nat}

theorem ends_execute {n : Int} {limit : Option Int}
    (made : Machine.ofSize { storage := storage } n = .ok m) (fits : words.length ≤ n)
    (limited : options.limit = .ofSteps limit) :
    ∃ start, m.load words = .ok start ∧ Ends (execute storage (some n) words options)
      (fun code => ∃ reason left,
        Control.run limit { start with tracing := options.trace } = some (.ok reason left) ∧
          code = exitCode reason)
      Failure.Unwritable (Control.run limit { start with tracing := options.trace } = none) := by
  have sound := Machine.ofSize_sound made
  have short : words.length ≤ n.toNat := by omega
  obtain ⟨start, loaded⟩ : ∃ start, m.load words = .ok start :=
    ⟨_, Machine.load_eq_holding sound.shape short⟩
  obtain ⟨ready, -⟩ := Machine.load_sound sound loaded
  have traced : ({ start with tracing := options.trace } : Machine).Sound n.toNat :=
    ⟨⟨ready.shape.main, ready.shape.status, ready.shape.flags⟩,
      ⟨ready.settled.phase, ready.settled.stop, ready.settled.reason⟩⟩
  refine ⟨start, loaded, ?_⟩
  rw [execute]
  refine (ends_pure (P := (· = n)) rfl).bind ?_
  rintro _ rfl
  rw [made]
  refine (ends_orFail_ok (P := (· = m)) rfl).bind ?_
  rintro _ rfl
  rw [loaded]
  refine (ends_orFail_ok (P := (· = start)) rfl).bind ?_
  rintro _ rfl
  dsimp only
  refine (ends_log _ _ _).bind (fun _ _ => (ends_log _ _ _).bind (fun _ _ => ?_))
  rw [limited]
  exact ends_runAndReport options limit traced

theorem ends_execute_unmade {n : Int} {e : MemoryError}
    (unmade : Machine.ofSize { storage := storage } n = .error e) (words : List Int)
    (options : RunOptions) :
    Ends (execute storage (some n) words options) (fun _ => False) (· = .memory e) D := by
  rw [execute]
  refine (ends_pure (P := (· = n)) rfl).bind ?_
  rintro _ rfl
  rw [unmade]
  exact (ends_orFail_error (P := fun _ => False) (E := (· = .memory e)) rfl).bind
    (fun _ absurd => absurd.elim)

end Action

end BusMachine.Command
