import BusMachine.Proofs.Machine.Stops

/-!
The machines that a host can make. Whatever it does, also where an operation fails, the machine
keeps its shape and is settled.
-/
namespace BusMachine

variable {size : Nat} {m m' : Machine}

/-- The machine that an operation leaves behind, failed or not. One that does not end leaves none,
and there is only the machine before it. -/
def HostOperation.after (op : HostOperation) (m : Machine) : Machine :=
  match op.perform m with
  | some (.ok _ m') => m'
  | some (.error _ m') => m'
  | none => m

/-- What operations of a host make of a new machine of that size. -/
inductive Machine.Reachable (size : Int) : Machine → Prop
  | new {m : Machine} (host : Host) : Machine.ofSize host size = .ok m → Reachable size m
  | after {m : Machine} (op : HostOperation) : Reachable size m → Reachable size (op.after m)

/-- What is settled between two operations. A step that fails may leave the machine between its
phases, but if every number can be written no step fails. -/
structure Machine.Settled (m : Machine) : Prop where
  phase : m.writing = .total → m.phase = .fetch ∨ m.phase = .halted
  stop : m.phase = .halted ↔ m.stop ≠ none
  reason : m.stop ≠ some .timeout

/-- What holds of every machine between two operations. -/
structure Machine.Sound (size : Nat) (m : Machine) : Prop where
  shape : m.WellFormed size
  settled : m.Settled

namespace Machine

theorem Settled.along (h : m.Settled) (course : m.SameCourse m') : m'.Settled := by
  obtain ⟨phase, stop, reason⟩ := h
  rw [← course.phase, ← course.stop] at stop
  rw [← course.phase, ← course.writing] at phase
  exact ⟨phase, stop, course.stop.symm ▸ reason⟩

theorem Sound.along (h : m.Sound size) (shape : m'.WellFormed size) (course : m.SameCourse m') :
    m'.Sound size :=
  ⟨shape, h.settled.along course⟩

theorem Sound.stop (h : m.Sound size) (running : m.phase ≠ .halted) : m.stop = none :=
  Decidable.not_not.mp fun some_ => running (h.settled.stop.mpr some_)

theorem Sound.reason (h : m.Sound size) (halted : m.phase = .halted) :
    ∃ r, m.stop = some r ∧ r ≠ .timeout := by
  obtain ⟨r, stop⟩ := Option.ne_none_iff_exists'.mp (h.settled.stop.mp halted)
  exact ⟨r, stop, fun timeout => h.settled.reason (timeout ▸ stop)⟩

theorem ofSize_eq {host : Host} {n : Int} (made : Machine.ofSize host n = .ok m) :
    m = { main := .blank n.toNat, writing := host.writing } ∧ 0 < n ∧ n < 9223372036854775808 := by
  unfold ofSize at made
  cases counted : Memory.ofSize host n with
  | error e => simp [counted, Except.map] at made
  | ok main =>
    obtain ⟨rfl, range⟩ := Memory.ofSize_ok counted
    simp only [counted, Except.map, Except.ok.injEq] at made
    exact ⟨made.symm, range⟩

theorem ofSize_sound {host : Host} {n : Int} (made : Machine.ofSize host n = .ok m) :
    m.Sound n.toNat := by
  obtain ⟨rfl, positive, -⟩ := ofSize_eq made
  have blank : (Memory.blank n.toNat).Intact n.toNat := Memory.blank_intact (by omega)
  exact ⟨⟨blank, Memory.blank_intact (by decide), rfl⟩, fun _ => .inl rfl, by simp, by simp⟩

theorem reset_sound (h : m.Sound size) : m.reset.Sound size := by
  refine ⟨⟨Memory.clear_intact h.shape.main, Memory.clear_intact h.shape.status, ?_⟩,
    fun _ => .inl rfl, ?_, ?_⟩
  · simpa [reset, Flags.reset, Flags.cleared] using h.shape.flags
  · simp [reset]
  · simp [reset]

theorem load_sound {words : List Int} (h : m.Sound size) (loaded : m.load words = .ok m') :
    m'.Sound size ∧ m'.writing = m.writing := by
  have ready := reset_sound h
  unfold load at loaded
  dsimp only at loaded
  split at loaded
  · rename_i main hm
    cases loaded
    exact ⟨⟨⟨Memory.load_intact ready.shape.main hm, ready.shape.status, ready.shape.flags⟩,
      ready.settled.along ⟨rfl, rfl, rfl, rfl, rfl, rfl⟩⟩, rfl⟩
  · cases loaded

theorem loadFile_sound {text : String} (h : m.Sound size) (loaded : m.loadFile text = .ok m') :
    m'.Sound size ∧ m'.writing = m.writing := by
  unfold loadFile at loaded
  split at loaded
  · exact load_sound h loaded
  · cases loaded

theorem loadSource_sound {source : String} (h : m.Sound size)
    (loaded : m.loadSource source = .ok m') :
    m'.Sound size ∧ m'.writing = m.writing := by
  unfold loadSource at loaded
  split at loaded
  · rename_i words _
    cases outcome : m.load words with
    | ok next =>
      rw [outcome] at loaded
      cases loaded
      exact load_sound h outcome
    | error e =>
      rw [outcome] at loaded
      cases loaded
  · cases loaded

end Machine

namespace Control

theorem runFor_of_goes_on {next : Machine} (n : Nat) (stepped : step m = .ok none next) :
    runFor (n + 1) m = runFor n next := by
  rw [runFor, bind_of_ok stepped]

theorem runFor_of_stops {next : Machine} {r : StopReason} (n : Nat)
    (stepped : step m = .ok (some r) next) :
    runFor (n + 1) m = .ok r next := by
  rw [runFor, bind_of_ok stepped]
  rfl

theorem runFor_of_fails {next : Machine} {e : DatapathError} (n : Nat)
    (stepped : step m = .error e next) : runFor (n + 1) m = .error e next := by
  rw [runFor, bind_of_error stepped]

end Control

namespace Machine

/-- The outcome of an operation, failed or not, is sound, and writes the numbers that it
wrote before. -/
def SoundOutcome {ε α : Type} (size : Nat) (k : Writing) : EStateM.Result ε Machine α → Prop
  | .ok _ m => m.Sound size ∧ m.writing = k
  | .error _ m => m.Sound size ∧ m.writing = k

end Machine

namespace Control

open Machine

theorem step_sound (h : m.Sound size) : SoundOutcome size m.writing (step m) := by
  by_cases halted : m.phase = .halted
  · rw [step_of_halted halted]
    exact ⟨h, rfl⟩
  have stop := h.stop halted
  rcases step_by_rules h.shape halted with
    ⟨reason, m', stepped, shape, left, -⟩ | ⟨m', stepped, shape, broken, fails⟩
  · rw [stepped]
    have phase' := left.phase
    have stop' := left.stop
    rw [stop, Option.or_none] at stop'
    cases reason with
    | none =>
      exact ⟨⟨shape, fun _ => .inl phase', by simp [phase', stop'], by simp [stop']⟩, left.writing⟩
    | some r =>
      refine ⟨⟨shape, fun _ => .inr phase', by simp [phase', stop'], ?_⟩, left.writing⟩
      rw [stop']
      exact fun same => left.visible.reason (Option.some.inj same)
  · rw [stepped]
    have stop' := broken.stop.trans stop
    refine ⟨⟨shape, fun total => ?_, by simp [fails.running, stop'], by simp [stop']⟩,
      broken.writing⟩
    exact absurd (broken.writing.symm.trans total) fails.writing

/-- Where every number can be written, a step answers. -/
theorem step_of_total (shape : m.WellFormed size) (total : m.writing = .total) :
    ∃ reason m', step m = .ok reason m' ∧ m'.WellFormed size ∧ m'.writing = .total := by
  by_cases halted : m.phase = .halted
  · exact ⟨m.stop, m, step_of_halted halted, shape, total⟩
  rcases step_by_rules shape halted with ⟨reason, m', stepped, shape', left, -⟩
    | ⟨_, _, _, _, fails⟩
  · exact ⟨reason, m', stepped, shape', left.writing.trans total⟩
  · exact absurd total fails.writing

theorem runFor_sound (n : Nat) (h : m.Sound size) : SoundOutcome size m.writing (runFor n m) := by
  induction n generalizing m with
  | zero => exact ⟨h, rfl⟩
  | succ n ih =>
    have outcome := step_sound h
    cases stepped : step m with
    | error e next =>
      rw [stepped] at outcome
      rw [runFor_of_fails n stepped]
      exact outcome
    | ok reason next =>
      rw [stepped] at outcome
      obtain ⟨sound, writing⟩ := outcome
      cases reason with
      | none =>
        rw [runFor_of_goes_on n stepped, ← writing]
        exact ih sound
      | some r =>
        rw [runFor_of_stops n stepped]
        exact ⟨sound, writing⟩

/-- A run without a limit gives what a run with some limit gives. -/
theorem runFor_of_runOn {r : EStateM.Result DatapathError Machine StopReason}
    (ran : m.runOn = some r) :
    ∃ n, runFor n m = r := by
  refine Machine.runOn.partial_correctness (fun m r => ∃ n, runFor n m = r) ?_ m r ran
  intro run ih m r ran
  split at ran
  · next reason next stepped => exact ⟨1, Option.some.inj ran ▸ runFor_of_stops 0 stepped⟩
  · next next stepped =>
    obtain ⟨n, rest⟩ := ih next r ran
    exact ⟨n + 1, (runFor_of_goes_on n stepped).trans rest⟩
  · next e next stepped => exact ⟨1, Option.some.inj ran ▸ runFor_of_fails 0 stepped⟩

theorem exists_runFor_of_run {limit : Option Int}
    {r : EStateM.Result DatapathError Machine StopReason} (ran : run limit m = some r) :
    ∃ n, runFor n m = r := by
  cases limit with
  | none => exact runFor_of_runOn ran
  | some n => exact ⟨n.toNat, Option.some.inj ran⟩

end Control

namespace Machine

theorem replace_sound {ε : Type} (wrap : ε → HostError) {f : Machine → Except ε Machine}
    (h : m.Sound size) (kept : ∀ m', f m = .ok m' → m'.Sound size ∧ m'.writing = m.writing) :
    SoundOutcome size m.writing (replace wrap f m) := by
  unfold replace
  cases made : f m with
  | ok m' => exact kept m' made
  | error e => exact ⟨h, rfl⟩

theorem answer_sound {α : Type} (reason : α → Option StopReason)
    {r : EStateM.Result DatapathError Machine α} {k : Writing} (h : SoundOutcome size k r) :
    SoundOutcome size k (answer reason r) := by
  cases r <;> exact h

/-- A phase alone that fails keeps what was done before it. -/
theorem phase_sound {α : Type} {c : Control α} (h : m.Sound size) (safe : Control.Safe c) :
    SoundOutcome size m.writing (c m) := by
  have outcome := safe size m h.shape
  cases run : c m with
  | ok a m' =>
    rw [run] at outcome
    exact ⟨h.along outcome.1 outcome.2, outcome.2.writing⟩
  | error e m' =>
    rw [run] at outcome
    exact ⟨h.along outcome.1.1 outcome.1.2, outcome.1.2.writing⟩

end Machine

open Machine in
theorem HostOperation.perform_sound (op : HostOperation) (h : m.Sound size)
    {r : EStateM.Result HostError Machine (Option StopReason)} (performed : op.perform m = some r) :
    SoundOutcome size m.writing r := by
  cases op with
  | run limit =>
    obtain ⟨outcome, ran, rfl⟩ := Option.map_eq_some_iff.mp performed
    obtain ⟨n, ran⟩ := Control.exists_runFor_of_run ran
    exact answer_sound _ (ran ▸ Control.runFor_sound n h)
  | load words =>
    cases performed
    exact replace_sound _ h (fun _ made => load_sound h made)
  | loadFile text =>
    cases performed
    exact replace_sound _ h (fun _ made => loadFile_sound h made)
  | loadSource source =>
    cases performed
    exact replace_sound _ h (fun _ made => loadSource_sound h made)
  | step =>
    cases performed
    exact answer_sound _ (Control.step_sound h)
  | fetch =>
    cases performed
    exact answer_sound _ (phase_sound h Control.fetch_safe)
  | decodeExecute =>
    cases performed
    exact answer_sound _ (phase_sound h Control.decodeExecute_safe)
  | setRegister r v =>
    cases performed
    exact ⟨h.along ⟨h.shape.main, h.shape.status, h.shape.flags⟩ ⟨rfl, rfl, rfl, rfl, rfl, rfl⟩,
      rfl⟩
  | setFlag i bit =>
    cases performed
    refine replace_sound _ h ?_
    intro m' made
    cases written : m.flags.set i bit with
    | error e => simp [Machine.setFlag, written, Except.map] at made
    | ok f =>
      simp only [Machine.setFlag, written, Except.map, Except.ok.injEq] at made
      subst made
      have two := (Flags.set_length written).trans h.shape.flags
      exact ⟨h.along ⟨h.shape.main, h.shape.status, two⟩ ⟨rfl, rfl, rfl, rfl, rfl, rfl⟩, rfl⟩
  | setTracing on =>
    cases performed
    exact ⟨⟨⟨h.shape.main, h.shape.status, h.shape.flags⟩, h.settled.phase, h.settled.stop,
      h.settled.reason⟩, rfl⟩
  | clearTrace =>
    cases performed
    exact ⟨⟨⟨h.shape.main, h.shape.status, h.shape.flags⟩, h.settled.phase, h.settled.stop,
      h.settled.reason⟩, rfl⟩
  | reset =>
    cases performed
    exact ⟨reset_sound h, rfl⟩
  | poke a v =>
    cases performed
    refine replace_sound _ h ?_
    intro m' made
    cases written : m.main.poke MemoryBank.main.name a v with
    | error e => simp [written, Except.map] at made
    | ok main =>
      simp only [written, Except.map, Except.ok.injEq] at made
      subst made
      have intact := Memory.poke_intact h.shape.main written
      exact ⟨h.along ⟨intact, h.shape.status, h.shape.flags⟩ ⟨rfl, rfl, rfl, rfl, rfl, rfl⟩, rfl⟩
  | loadCells words base =>
    cases performed
    refine replace_sound _ h ?_
    intro m' made
    cases written : m.main.load words base with
    | error e => simp [written, Except.map] at made
    | ok main =>
      simp only [written, Except.map, Except.ok.injEq] at made
      subst made
      have intact := Memory.load_intact h.shape.main written
      exact ⟨h.along ⟨intact, h.shape.status, h.shape.flags⟩ ⟨rfl, rfl, rfl, rfl, rfl, rfl⟩, rfl⟩
  | clearCells =>
    cases performed
    have intact := Memory.clear_intact h.shape.main
    exact ⟨h.along ⟨intact, h.shape.status, h.shape.flags⟩ ⟨rfl, rfl, rfl, rfl, rfl, rfl⟩, rfl⟩

theorem HostOperation.after_sound (op : HostOperation) (h : m.Sound size) :
    (op.after m).Sound size ∧ (op.after m).writing = m.writing := by
  unfold after
  split
  · next performed => exact op.perform_sound h performed
  · next performed => exact op.perform_sound h performed
  · exact ⟨h, rfl⟩

/-- Every machine that a host can make is sound. -/
theorem Machine.Reachable.sound {n : Int} (h : Reachable n m) : m.Sound n.toNat := by
  induction h with
  | new _ made => exact ofSize_sound made
  | after op _ ih => exact (op.after_sound ih).1

/-- The host on which a machine was made could make it again. -/
theorem Machine.Reachable.host {n : Int} (h : Reachable n m) :
    ∃ host new, host.writing = m.writing ∧ Machine.ofSize host n = .ok new := by
  induction h with
  | @new m host made => exact ⟨host, m, ((ofSize_eq made).1 ▸ rfl), made⟩
  | after op before ih =>
    obtain ⟨host, new, writing, made⟩ := ih
    exact ⟨host, new, writing.trans (op.after_sound before.sound).2.symm, made⟩

theorem Machine.Reachable.size_lt {n : Int} (h : Reachable n m) : n < 9223372036854775808 := by
  induction h with
  | new _ made => exact (ofSize_eq made).2.2
  | after _ _ ih => exact ih

end BusMachine
