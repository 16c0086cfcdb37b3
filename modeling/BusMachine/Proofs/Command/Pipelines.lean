import BusMachine.Proofs.Command.Assembling
import BusMachine.Proofs.Command.Requests
import BusMachine.Proofs.Command.Running

/-!
Assembling and running at once is assembling into a file and running the file.
-/
namespace BusMachine

open Text

namespace Command

/-- A number had too many digits to be written, and that was reported. -/
def Outcome.Unwritable (o : Outcome) : Prop :=
  o.result = .ok 1 ∧
    ∃ before, o.messages = before ++ ("Load error: " ++ NumeralError.unwritable.message) ++ "\n"

/-- How the program ends that runs a machine: its exit code tells why the machine stopped. It does
not end with a machine that never stops, and reports a number with too many digits. -/
inductive Tells (limit : Option Int) (m : Machine) : Option Outcome → Prop where
  | stopped {o : Outcome} {reason : StopReason} {left : Machine} :
      Control.run limit m = some (.ok reason left) →
        o.result = .ok (if reason = .halt then 0 else 2) →
      Tells limit m (some o)
  | unwritable {o : Outcome} : o.Unwritable → Tells limit m (some o)
  | endless : Control.run limit m = none → Tells limit m none

namespace Outcome

variable {storage : Option Nat} {n : Int} {words : List Int} {options : RunOptions}
  {limit : Option Int}
  {s t : Session}

theorem ofEnd_of_reported {e : Failure} {s : Session} (reported : e.isReported = true) :
    ofEnd (.error e, s) = ⟨.ok 1, s.output, s.messages ++ e.report ++ "\n", s.flush.files⟩ := by
  rw [ofEnd, if_pos reported]

theorem unwritable_ofEnd {e : Failure} {s : Session} (h : e.Unwritable) :
    (ofEnd (.error e, s)).Unwritable := by
  cases h with
  | number => exact ⟨rfl, s.messages, rfl⟩
  | row => exact ⟨rfl, s.messages, rfl⟩
  | step => exact ⟨rfl, s.messages, rfl⟩

theorem ofEnd_eq_zero {r : Except Failure Nat × Session} (exited : (ofEnd r).result = .ok 0) :
    ∃ s, r = (.ok 0, s) := by
  rcases r with ⟨e | code, s⟩
  · rw [ofEnd] at exited
    split at exited <;> cases exited
  · cases exited
    exact ⟨s, rfl⟩

/-- Sessions that are alike show the same, and a run of the program ends so in both of them. -/
theorem ofEnd_of_ends {x : Action Nat} {P : Nat → Prop} {E : Failure → Prop} {D : Prop}
    (h : Action.Ends x P E D) (alike : s.Alike t) :
    ((x s).map ofEnd).map output = ((x t).map ofEnd).map output ∧
      ((x s).map ofEnd).map result = ((x t).map ofEnd).map result ∧
      ((∃ code t', x t = some (.ok code, t') ∧ P code) ∨ (∃ e t', x t = some (.error e, t') ∧ E e) ∨
        x t = none ∧ D) := by
  rcases h s t alike with ⟨l, r, left, right, shared⟩ | ⟨left, right, endless⟩
  · rw [left, right]
    cases shared with
    | @value code s' t' follow value =>
      exact ⟨congrArg some follow.alike.output, rfl, .inl ⟨code, t', rfl, value⟩⟩
    | @failure e s' t' follow failure =>
      have output : (ofEnd (.error e, s')).output = (ofEnd (.error e, t')).output := by
        rw [ofEnd, ofEnd]
        split <;> exact follow.alike.output
      have result : (ofEnd (.error e, s')).result = (ofEnd (.error e, t')).result := by
        rw [ofEnd, ofEnd]
        split <;> rfl
      exact ⟨congrArg some output, congrArg some result, .inr (.inl ⟨e, t', rfl, failure⟩)⟩
  · rw [left, right]
    exact ⟨rfl, rfl, .inr (.inr ⟨rfl, endless⟩)⟩

/-- A machine that cannot be made though its size is positive breaks the program off. -/
theorem isReported_of_unmade {host : Host} {e : MemoryError} (positive : 0 < n)
    (unmade : Machine.ofSize host n = .error e) : (Failure.memory e).isReported = false := by
  simp only [Machine.ofSize, Memory.ofSize, if_pos positive, cellCount] at unmade
  split at unmade
  · cases unmade
    rfl
  · split at unmade <;> cases unmade
    rfl

/-- Running words that fit shows the same in sessions that are alike. If there is a machine of that
size, the exit code tells why it stopped. -/
theorem ofEnd_execute (positive : 0 < n) (fits : words.length ≤ n)
    (limited : options.limit = .ofSteps limit) (alike : s.Alike t) {o p : Option Outcome}
    (left : o = (Action.execute storage (some n) words options s).map ofEnd)
    (right : p = (Action.execute storage (some n) words options t).map ofEnd) :
    o.map output = p.map output ∧ o.map result = p.map result ∧
      (∀ e, Machine.ofSize { storage := storage } n = .error e →
        p.map result = some (.error (.memory e))) ∧
      ∀ m, Machine.ofSize { storage := storage } n = .ok m →
        ∃ start, m.load words = .ok start ∧
          Tells limit { start with tracing := options.trace } p := by
  subst left right
  cases made : Machine.ofSize { storage := storage } n with
  | error e =>
    obtain ⟨output, result, ⟨_, _, -, none⟩ | ⟨_, t', ended, rfl⟩ | ⟨-, none⟩⟩ :=
      ofEnd_of_ends (Action.ends_execute_unmade (D := False) made words options) alike
    · exact none.elim
    · refine ⟨output, result, ?_, fun _ other => by cases other⟩
      rintro _ ⟨⟩
      simp only [ended, Option.map_some, ofEnd, isReported_of_unmade positive made]
      rfl
    · exact none.elim
  | ok m =>
    obtain ⟨start, loaded, ends⟩ := Action.ends_execute made fits limited
    obtain ⟨output, result, ending⟩ := ofEnd_of_ends ends alike
    refine ⟨output, result, fun _ other => (by cases other), ?_⟩
    rintro _ ⟨⟩
    refine ⟨start, loaded, ?_⟩
    rcases ending with ⟨_, t', ended, reason, left, stopped, rfl⟩ | ⟨e, t', ended, unwritable⟩
      | ⟨ended, endless⟩
    · rw [ended]
      exact .stopped stopped rfl
    · rw [ended]
      exact .unwritable (unwritable_ofEnd unwritable)
    · rw [ended]
      exact .endless endless

end Outcome

def Settings.session (settings : Settings) (files : FileTree) : Session :=
  { files := files, threshold := settings.threshold }

theorem run_of_request {words : List String} {settings : Settings} {task : Task}
    (storage : Option Nat) (asked : readRequest words = .perform settings task)
    (unlogged : settings.logFile = none) (files : FileTree) : run storage words files =
      (Action.perform storage settings.memorySize task (settings.session files)).map .ofEnd := by
  have performed : Action.performLogged storage settings task (settings.session files) =
      Action.perform storage settings.memorySize task (settings.session files) := by
    rw [Action.performLogged, unlogged]
  rw [← performed]
  simp only [run, asked]
  rfl

section

variable {settings : Settings} {n : Int} {file out : String} {files found : FileTree}
  {words : List Int}

theorem writes_of_exit {storage : Option Nat} {listing : Bool} {asmWords : List String}
    {o : Outcome} (sized : settings.memorySize = some n) (unlogged : settings.logFile = none)
    (named : out ≠ "") (plain : extension out ≠ ".lst")
    (asked : readRequest asmWords = .perform settings (.assemble file (some out) listing))
    (ran : run storage asmWords files = some o) (exited : o.result = .ok 0) :
    ∃ words, Assembles files file n words ∧
      files.write (.ofString out) (Utf8.encode (Executable.toText words).toList) = .ok o.files := by
  rw [run_of_request storage asked unlogged, sized] at ran
  obtain ⟨r, done, rfl⟩ := Option.map_eq_some_iff.mp ran
  obtain ⟨s, rfl⟩ := Outcome.ofEnd_eq_zero exited
  obtain ⟨words, assembles, written, closed⟩ := Action.assemble_ok rfl named plain done
  rw [Outcome.ofEnd, Session.flush_of_unlogged closed]
  exact ⟨words, assembles, written⟩

theorem perform_run (storage : Option Nat) (options : RunOptions)
    (sized : settings.memorySize = some n) (writable : ∀ w ∈ words, Numeral.isWritable w = true)
    (read : found.read (.ofString out) = .ok (Utf8.encode (Executable.toText words).toList)) :
    Action.perform storage settings.memorySize (.run out options) (settings.session found) =
      Action.execute storage (some n) words options (settings.session found) := by
  rw [sized]
  exact Action.bind_of_ok (Action.readExecutable_of_text writable read)

theorem perform_build (storage : Option Nat) (options : RunOptions)
    (sized : settings.memorySize = some n) (assembles : Assembles found file n words) :
    ∃ messages,
      Action.perform storage settings.memorySize (.build file options) (settings.session found) =
        Action.execute storage (some n) words options { settings.session found with
          messages := messages } := by
  obtain ⟨messages, ⟨a, done, same⟩ | ⟨e, failed, -, none⟩⟩ :=
    Action.assembleFile_cases (s := settings.session found) n file rfl
  · obtain rfl := assembles.unique same
    rw [sized]
    exact ⟨messages, Action.bind_of_ok done⟩
  · exact absurd assembles (none words)

/-- What has no executable ends everything that begins with assembling it in the same way. -/
theorem ofEnd_of_unassembled (settings : Settings)
    (none : ∀ words, ¬ Assembles files file n words) :
    ∃ o : Outcome, o.result = .ok 1 ∧ o.files = files ∧ ∀ f : Assembler → Action Nat,
      ((Action.assembleFile (some n) file >>= f) (settings.session files)).map .ofEnd = some o := by
  obtain ⟨messages, ⟨a, -, assembles⟩ | ⟨e, failed, reported, -⟩⟩ :=
    Action.assembleFile_cases (s := settings.session files) n file rfl
  · exact absurd assembles (none a.executable)
  · have ending :=
      Outcome.ofEnd_of_reported (s := { settings.session files with messages := messages }) reported
    refine ⟨_, congrArg Outcome.result ending, congrArg Outcome.files ending, fun f => ?_⟩
    rw [Action.bind_of_error failed]
    rfl

end

/-- Assembling source text into a file and running the file shows what building the source text
shows and ends as it does, or ends no more than it does: by the reason for which the machine
stopped, unless a number had too many digits, or broken off if there can be no machine of that size.
Where there is no executable, assembling and building report the same and write no file. -/
theorem build_is_assemble_then_run (storage : Option Nat) {settings : Settings} {n : Int}
    (sized : settings.memorySize = some n) (unlogged : settings.logFile = none) {file out : String}
    (named : out ≠ "") (plain : extension out ≠ ".lst") {listing : Bool} {options : RunOptions}
    {limit : Option Int} (limited : options.limit = .ofSteps limit)
    {asmWords runWords buildWords : List String}
    (asked : readRequest asmWords = .perform settings (.assemble file (some out) listing) ∧
      readRequest runWords = .perform settings (.run out options) ∧
      readRequest buildWords = .perform settings (.build file options))
    (files : FileTree) :
    (∀ assembled, run storage asmWords files = some assembled → assembled.result = .ok 0 →
      ∀ found, (found = files ∨ found = assembled.files ∧
          files.place (.ofString file) ≠ files.place (.ofString out)) →
        (run storage runWords assembled.files).map Outcome.output =
          (run storage buildWords found).map Outcome.output ∧
        (run storage runWords assembled.files).map Outcome.result =
          (run storage buildWords found).map Outcome.result ∧
        (∀ e, Machine.ofSize { storage := storage } n = .error e →
          (run storage buildWords found).map Outcome.result = some (.error (.memory e))) ∧
        ∀ m, Machine.ofSize { storage := storage } n = .ok m →
          ∃ words start, Assembles files file n words ∧ m.load words = .ok start ∧
            Tells limit { start with tracing := options.trace } (run storage buildWords found)) ∧
    ((∀ words, ¬ Assembles files file n words) →
      ∃ assembled built, run storage asmWords files = some assembled ∧
        run storage buildWords files = some built ∧ assembled.result = .ok 1 ∧
          built.result = .ok 1 ∧
        assembled.messages = built.messages ∧ assembled.files = files ∧ built.files = files) := by
  obtain ⟨asm, runs, builds⟩ := asked
  constructor
  · intro assembled asmRan exited found origin
    obtain ⟨words, assembles, written⟩ :=
      writes_of_exit sized unlogged named plain asm asmRan exited
    -- The source text may be built before or after the executable was written: it is the same text.
    have building : Assembles found file n words := by
      rcases origin with rfl | ⟨rfl, apart⟩
      · exact assembles
      · exact assembles.after_write written apart
    obtain ⟨messages, built⟩ := perform_build storage options sized building
    have writable := assembles.isWritable (isWritable_memorySize asm sized)
    have ran := perform_run storage options sized writable (FileTree.read_write written)
    obtain ⟨positive, fits⟩ := assembles.fits
    have runEnds := run_of_request storage runs unlogged assembled.files
    have buildEnds := run_of_request storage builds unlogged found
    rw [ran] at runEnds
    rw [built] at buildEnds
    have alike : (settings.session assembled.files).Alike
        { settings.session found with messages := messages } := ⟨rfl, rfl, rfl, rfl⟩
    obtain ⟨output, result, unmade, tells⟩ :=
      Outcome.ofEnd_execute positive fits limited alike runEnds buildEnds
    refine ⟨output, result, unmade, fun m made => ?_⟩
    obtain ⟨start, loaded, tell⟩ := tells m made
    exact ⟨words, start, assembles, loaded, tell⟩
  · intro none
    obtain ⟨o, code, same, ends⟩ := ofEnd_of_unassembled settings none
    have assembling : run storage asmWords files = some o := by
      rw [run_of_request storage asm unlogged, sized]
      exact ends _
    have building : run storage buildWords files = some o := by
      rw [run_of_request storage builds unlogged, sized]
      exact ends _
    exact ⟨o, o, assembling, building, code, code, rfl, same, same⟩

/-- A directory with a program and a text that is none. -/
def holdsSources : FileTree :=
  ⟨[(["p.dsf"], .file (Utf8.encode "inc %reg0\n".toList)),
    (["q.dsf"], .file (Utf8.encode "inc reg0\n".toList))]⟩

theorem second_source_unassembled (words : List Int) :
    ¬ Assembles holdsSources "q.dsf" 256 words := by
  rintro ⟨bytes, cs, read, decoded, assembled⟩
  obtain rfl : Utf8.encode "inc reg0\n".toList = bytes :=
    Except.ok.inj (.trans (by decide +kernel) read)
  obtain rfl : "inc reg0\n".toList = cs := Except.ok.inj (.trans (by decide +kernel) decoded)
  have refused : (assembleFileText (String.ofList "inc reg0\n".toList) 256).isOk = false := by
    decide +kernel
  rw [assembled] at refused
  cases refused

theorem first_source_builds_as_it_runs :
    (∃ assembled, run none ["asm", "p.dsf", "-o", "p.dxf"] holdsSources = some assembled ∧
      assembled.result = .ok 0 ∧
      (run none ["run", "--max-steps", "9", "--trace", "p.dxf"] assembled.files).map
        Outcome.output =
        (run none ["build", "--max-steps", "9", "--trace", "p.dsf"] holdsSources).map
          Outcome.output ∧
      (run none ["run", "--max-steps", "9", "--trace", "p.dxf"] assembled.files).map
        Outcome.result = some (.ok 0)) ∧
      (run none ["build", "q.dsf"] holdsSources).map Outcome.result = some (.ok 1) := by
  let traced : RunOptions := { limit := .atMost 9, trace := true }
  have bounded : traced.limit = .ofSteps (some 9) := rfl
  have unlimited : ({} : RunOptions).limit = .ofSteps none := rfl
  have named : "p.dxf" ≠ "" := by decide
  have plain : extension "p.dxf" ≠ ".lst" := by decide +kernel
  have exited : (run none ["asm", "p.dsf", "-o", "p.dxf"] holdsSources).map Outcome.result =
    some (.ok 0) := by decide +kernel
  have built :
      (run none ["build", "--max-steps", "9", "--trace", "p.dsf"] holdsSources).map Outcome.result =
        some (.ok 0) := by
    decide +kernel
  have asked : readRequest ["asm", "p.dsf", "-o", "p.dxf"] =
        .perform {} (.assemble "p.dsf" (some "p.dxf") false) ∧
      readRequest ["run", "--max-steps", "9", "--trace", "p.dxf"] =
        .perform {} (.run "p.dxf" traced) ∧
      readRequest ["build", "--max-steps", "9", "--trace", "p.dsf"] =
        .perform {} (.build "p.dsf" traced) := by
    decide +kernel
  have asked' : readRequest ["asm", "q.dsf", "-o", "p.dxf"] =
        .perform {} (.assemble "q.dsf" (some "p.dxf") false) ∧
      readRequest ["run", "p.dxf"] = .perform {} (.run "p.dxf" {}) ∧
      readRequest ["build", "q.dsf"] = .perform {} (.build "q.dsf" {}) := by
    decide +kernel
  obtain ⟨assembled, asmRan, exited⟩ := Option.map_eq_some_iff.mp exited
  obtain ⟨agree, -⟩ :=
    build_is_assemble_then_run none rfl rfl named plain bounded asked holdsSources
  obtain ⟨output, result, -⟩ := agree assembled asmRan exited _ (.inl rfl)
  obtain ⟨-, refuse⟩ :=
    build_is_assemble_then_run none rfl rfl named plain unlimited asked' holdsSources
  obtain ⟨_, refused, -, ran, -, code, -⟩ := refuse second_source_unassembled
  exact ⟨⟨assembled, asmRan, exited, output,
    result.trans built⟩, by rw [ran, Option.map_some, code]⟩

/-- There are executables for 2 ^ 63 words of memory, but no machine. -/
theorem build_without_machine_breaks_off :
    (run none ["--memory-size", "9223372036854775808", "asm", "p.dsf", "-o",
      "p.dxf"] holdsSources).map
        Outcome.result = some (.ok 0) ∧
      (run none ["--memory-size", "9223372036854775808", "build", "--max-steps", "0", "p.dsf"]
        holdsSources).map Outcome.result = some (.error (.memory .unindexable)) := by
  decide +kernel

end Command

end BusMachine
