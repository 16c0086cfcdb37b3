import BusMachine.Proofs.Assembly.WritableWords
import BusMachine.Proofs.Command.Session
import BusMachine.Proofs.Files.Executables
import BusMachine.Proofs.Machine.Loading

/-!
Assembling a file from the command line. What becomes of it depends on the bytes of the file and the
memory size, and the only file that is ever written is the one that the executable goes to.
-/
namespace BusMachine

open Text

namespace Command

namespace Action

/-- What is done with source text once it was read. -/
def assembleText (memorySize : Option Int) (source : String) : Action Assembler := do
  logDraft (Draft.ofSource source).1
  let (a, parsed) := (Assembler.ofSize (memorySize.getD 0)).parse source
  let p ← orFail .assembly parsed
  let _ ← require .memoryToAssemble memorySize
  match a.install p with
  | (_, .error e) => throw (.assembly e)
  | (a, .ok words) =>
    log .assembler .info ("Assembled " ++ toString p.instructions.length ++ " instructions, " ++
      toString p.variableNames.length ++ " variables, " ++ toString p.labels.length ++
        " labels -> " ++
      toString words.length ++ " words")
    return a

theorem assembleFile_eq (memorySize : Option Int) (input : String) :
    assembleFile memorySize input = readText input >>= assembleText memorySize := rfl

variable {n : Int} {input out : String} {s s' : Session} {words : List Int}

theorem forM_log {γ : Type} (logger : Logger) (level : Level) (text : γ → String) (cs : List γ)
    (unlogged : s.logFile = none) :
    ∃ messages, (cs.forM fun c => log logger level (text c)) s =
      some (.ok (), { s with messages := messages }) := by
  induction cs generalizing s with
  | nil => exact ⟨s.messages, rfl⟩
  | cons c cs ih =>
    obtain ⟨messages, first⟩ := log_eq unlogged logger level (text c)
    obtain ⟨all, rest⟩ := @ih { s with messages := messages } unlogged
    exact ⟨all, (bind_of_ok first).trans rest⟩

theorem logDraft_eq (d : Draft) (unlogged : s.logFile = none) :
    ∃ messages, logDraft d s = some (.ok (), { s with messages := messages }) := by
  obtain ⟨first, declarations⟩ := forM_log .assembler .debug
    (fun e : String × Nat =>
      "Variable " ++ e.1 ++ " (line " ++ toString e.2 ++ ")") d.declarations unlogged
  obtain ⟨messages, labels⟩ := forM_log .assembler .debug
    (fun e : String × Int => "Label " ++ e.1 ++ " at object offset " ++ toString e.2) d.labels
    (s := { s with messages := first }) unlogged
  exact ⟨messages, (bind_of_ok declarations).trans labels⟩

theorem assembleText_cases (n : Int) (source : String) (unlogged : s.logFile = none) :
    ∃ messages,
      (∃ a, assembleText (some n) source s = some (.ok a, { s with messages := messages }) ∧
        BusMachine.assemble source n = .ok a.executable) ∨
      ∃ error, assembleText (some n) source s =
          some (.error (.assembly error), { s with messages := messages }) ∧
        BusMachine.assemble source n = .error error := by
  obtain ⟨messages, drafted⟩ := logDraft_eq (Draft.ofSource source).1 unlogged
  have unfolded : BusMachine.assemble source n = ((Assembler.ofSize n).assemble source).2 := rfl
  rw [Assembler.assemble] at unfolded
  rw [assembleText, bind_of_ok drafted]
  simp only [Option.getD_some]
  rcases parsed : (Assembler.ofSize n).parse source with ⟨a, error | p⟩ <;> rw [parsed] at unfolded
  · exact ⟨messages, .inr ⟨error, rfl, unfolded⟩⟩
  · simp only [Assembler.install] at unfolded
    have ready : (orFail .assembly (.ok p) : Action ObjectProgram) { s with messages := messages } =
      some (.ok p, { s with messages := messages }) := rfl
    have given : require .memoryToAssemble (some n) { s with messages := messages } =
      some (.ok n, { s with messages := messages }) := rfl
    rw [bind_of_ok ready, bind_of_ok given]
    simp only [Assembler.install]
    cases linked : a.link p with
    | error error =>
      rw [linked] at unfolded
      exact ⟨messages, .inr ⟨error, rfl, unfolded⟩⟩
    | ok words =>
      rw [linked] at unfolded
      obtain ⟨after, told⟩ :=
        log_eq (s := { s with messages := messages }) unlogged .assembler .info
        ("Assembled " ++ toString p.instructions.length ++ " instructions, " ++
          toString p.variableNames.length ++
          " variables, " ++ toString p.labels.length ++ " labels -> " ++ toString words.length ++
            " words")
      dsimp only
      rw [bind_of_ok told]
      exact ⟨after, .inl ⟨_, rfl, unfolded⟩⟩

end Action

/-- The words that a file of source text has as its executable for a memory of that size. -/
def Assembles (files : FileTree) (input : String) (n : Int) (words : List Int) : Prop :=
  ∃ bytes cs, files.read (.ofString input) = .ok bytes ∧ Utf8.decode bytes = .ok cs ∧
    assembleFileText (String.ofList cs) n = .ok words

namespace Action

/-- Assembling a file writes nothing but log messages, and fails only with a report. -/
theorem assembleFile_cases (n : Int) (input : String) (unlogged : s.logFile = none) :
    ∃ messages,
      (∃ a, assembleFile (some n) input s = some (.ok a, { s with messages := messages }) ∧
        Assembles s.files input n a.executable) ∨
      ∃ e, assembleFile (some n) input s = some (.error e, { s with messages := messages }) ∧
        e.isReported = true ∧
        ∀ words, ¬ Assembles s.files input n words := by
  have text := readText_eq input s
  rw [Session.flush_of_unlogged unlogged] at text
  rw [assembleFile_eq]
  cases read : s.files.read (.ofString input) with
  | error e =>
    rw [read] at text
    refine ⟨s.messages, .inr ⟨.file e, bind_of_error text, rfl, ?_⟩⟩
    rintro words ⟨bytes, _, found, -⟩
    rw [read] at found
    cases found
  | ok bytes =>
    rw [read] at text
    cases decoded : Utf8.decode bytes with
    | error e =>
      simp only [decoded] at text
      refine ⟨s.messages, .inr ⟨.bytes e, bind_of_error text, rfl, ?_⟩⟩
      rintro words ⟨_, cs, found, chars, -⟩
      cases read.symm.trans found
      rw [decoded] at chars
      cases chars
    | ok cs =>
      simp only [decoded] at text
      have source : assembleFileText (String.ofList cs) n =
          BusMachine.assemble (String.ofList (unifyNewlines cs)) n := by
        rw [assembleFileText, String.toList_ofList]
      rw [bind_of_ok text]
      obtain ⟨messages, ⟨a, done, assembled⟩ | ⟨error, failed, unassembled⟩⟩ :=
        assembleText_cases n (String.ofList (unifyNewlines cs)) unlogged
      · exact ⟨messages, .inl ⟨a, done, bytes, cs, read, decoded, source.trans assembled⟩⟩
      · refine ⟨messages, .inr ⟨.assembly error, failed, rfl, ?_⟩⟩
        rintro words ⟨_, _, found, chars, assembled⟩
        cases read.symm.trans found
        cases decoded.symm.trans chars
        rw [source, unassembled] at assembled
        cases assembled

/-- What is done with an executable that goes into a file of its own. -/
def deliver (out : String) (a : Assembler) : Action Nat := do
  writeText out a.executableText
  log .assembler .info ("Wrote " ++ toString a.executable.length ++ " words to " ++ out)
  print ("Assembled " ++ toString a.executable.length ++ " words -> " ++ out)
  return 0

theorem deliver_ok {a : Assembler} {code : Nat} (unlogged : s.logFile = none)
    (done : deliver out a s = some (.ok code, s')) :
    s.files.write (.ofString out) (Utf8.encode (Executable.toText a.executable).toList) =
      .ok s'.files ∧
      s'.logFile = none := by
  rw [deliver] at done
  rcases wrote : writeText out a.executableText s with none | ⟨e | _, s₁⟩
  · rw [bind_of_none wrote] at done
    cases done
  · rw [bind_of_error wrote] at done
    cases done
  · rw [bind_of_ok wrote] at done
    obtain ⟨files, written, rfl⟩ := writeText_eq_ok.mp wrote
    rw [Session.flush_of_unlogged unlogged] at written done
    have told : Ends (do
        log .assembler .info ("Wrote " ++ toString a.executable.length ++ " words to " ++ out)
        print ("Assembled " ++ toString a.executable.length ++ " words -> " ++ out)
        return 0 : Action Nat) (fun _ => True) (fun _ => True) False :=
      (ends_log _ _ _).bind (fun _ _ => (ends_print _).bind (fun _ _ => ends_pure trivial))
    obtain ⟨same, closed⟩ := told.files (s := { s with files := files }) unlogged done
    exact ⟨same ▸ written, closed⟩

/-- Assembling into a file puts the executable there, and changes nothing else. -/
theorem assemble_ok {listing : Bool} {code : Nat} (unlogged : s.logFile = none) (named : out ≠ "")
    (plain : extension out ≠ ".lst")
    (done : assemble (some n) input (some out) listing s = some (.ok code, s')) :
    ∃ words, Assembles s.files input n words ∧
      s.files.write (.ofString out) (Utf8.encode (Executable.toText words).toList) = .ok s'.files ∧
      s'.logFile = none := by
  have full : out.isEmpty = false := by simpa using named
  have other : (extension out == ".lst") = false := beq_false_of_ne plain
  rw [assemble] at done
  obtain ⟨messages, ⟨a, assembled, words⟩ | ⟨e, failed, -⟩⟩ := assembleFile_cases n input unlogged
  · rw [bind_of_ok assembled] at done
    simp only [Option.getD_some, full, other, Bool.or_false, Bool.false_eq_true, if_false] at done
    refine ⟨a.executable, words, ?_⟩
    split at done
    · cases listed : a.listing with
      | error e =>
        rw [listed] at done
        cases done
      | ok text =>
        have ready : (orFail .numeral (.ok text) : Action String) { s with messages := messages } =
          some (.ok text, { s with messages := messages }) := rfl
        have shown : print text { s with messages := messages } =
          some (.ok (), Session.printLine { s with messages := messages } text) := rfl
        rw [listed, bind_of_ok ready, bind_of_ok shown] at done
        exact deliver_ok (s := Session.printLine { s with messages := messages } text) unlogged done
    · exact deliver_ok (s := { s with messages := messages }) unlogged done
  · rw [bind_of_error failed] at done
    cases done

end Action

namespace Assembles

variable {n : Int} {input out : String} {files after : FileTree} {words words' : List Int}

theorem unique (h : Assembles files input n words) (h' : Assembles files input n words') :
    words = words' := by
  obtain ⟨bytes, cs, read, decoded, assembled⟩ := h
  obtain ⟨_, _, read', decoded', assembled'⟩ := h'
  cases read.symm.trans read'
  cases decoded.symm.trans decoded'
  exact Except.ok.inj (assembled.symm.trans assembled')

theorem after_write {bytes : List UInt8} (h : Assembles files input n words)
    (written : files.write (.ofString out) bytes = .ok after)
    (apart : files.place (.ofString input) ≠ files.place (.ofString out)) :
    Assembles after input n words := by
  obtain ⟨source, cs, read, decoded, assembled⟩ := h
  obtain ⟨here, ⟨way, free⟩, rfl⟩ := FileTree.write_eq_ok.mp written
  rw [way] at apart
  exact ⟨source, cs, FileTree.read_put free apart read, decoded, assembled⟩

theorem fits (h : Assembles files input n words) : 0 < n ∧ words.length ≤ n := by
  obtain ⟨_, _, -, -, assembled⟩ := h
  have long := length_le_of_assemble assembled
  have some_ := List.length_pos_iff.mpr (assemble_nonempty assembled)
  omega

theorem isWritable (h : Assembles files input n words) (sized : Numeral.isWritable n = true) :
    ∀ w ∈ words, Numeral.isWritable w = true := by
  obtain ⟨_, _, -, -, assembled⟩ := h
  exact isWritable_of_assemble assembled sized

end Assembles

end Command

end BusMachine
