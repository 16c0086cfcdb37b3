import BusMachine.Proofs.Files.Newlines
import BusMachine.Proofs.Files.Tree
import BusMachine.Proofs.Text.ExecutableText
import BusMachine.Proofs.Text.PlainText
import BusMachine.Proofs.Text.Writable

/-!
Executables survive their text and the files that hold it: words that can be written at all are read
again as the same words.
-/
namespace BusMachine

open Text

namespace Executable

variable {words : List Int}

theorem toText_cons (w : Int) (words : List Int) :
    (toText (w :: words)).toList = (toString w).toList ++ '\n' :: (toText words).toList := by
  simp [toText, String.join_cons]

theorem spells_toText (writable : ∀ w ∈ words, Numeral.isWritable w = true) :
    Spells (lines (toText words).toList) words := by
  induction words with
  | nil => exact .nil
  | cons w words ih =>
    have decimal := decimal_toString w
    have whole : trim (toString w).toList = (toString w).toList :=
      trim_of_not_blank (fun c hc => isBlank_of_isPlain (decimal.isPlain c hc))
    rw [toText_cons, lines_line decimal.isPlain]
    refine .word ?_ ?_ (ih (fun v hv => writable v (List.mem_cons_of_mem w hv)))
    · rw [whole]
      exact decimal.ne_nil
    · rw [whole, String.ofList_toList]
      exact Numeral.read_toString (writable w (List.mem_cons_self ..))

theorem ofText_toText (writable : ∀ w ∈ words, Numeral.isWritable w = true) :
    ofText (toText words) = .ok words :=
  (spells_toText writable).readLines

end Executable

namespace Command

variable {s s' : Session} {path text : String} {files : FileTree} {bytes : List UInt8}

namespace Action

theorem readExecutable_of_text {words : List Int}
    (writable : ∀ w ∈ words, Numeral.isWritable w = true)
    (read : s.flush.files.read (.ofString path) =
      .ok (Utf8.encode (Executable.toText words).toList)) :
    readExecutable path s = some (.ok words, s.flush) := by
  have holds : Holds s path (Executable.toText words) := read
  rw [readExecutable_of_holds holds, Executable.ofText_toText writable]
  rfl

theorem writeText_eq_ok : writeText path text s = some (.ok (), s') ↔
    ∃ files, s.flush.files.write (.ofString path) (Utf8.encode text.toList) = .ok files ∧
      s' = { s.flush with files := files } := by
  rw [writeText, flush_bind]
  constructor
  · intro done
    cases wrote : s.flush.files.write (.ofString path) (Utf8.encode text.toList) with
    | error e =>
      rw [wrote] at done
      cases done
    | ok files =>
      rw [wrote] at done
      cases done
      exact ⟨files, rfl, rfl⟩
  · rintro ⟨files, wrote, rfl⟩
    rw [wrote]
    rfl

end Action

namespace Session

def pendingBytes (s : Session) : List UInt8 := Utf8.encode (String.join s.pending.reverse).toList

/-- Flushing puts the pending lines into the log file, or does nothing if there is none or it
cannot be written. -/
theorem flush_cases (s : Session) :
    (s.flush = s ∧ ∀ log, s.logFile = some log →
      ∀ files, s.files.append log s.pendingBytes ≠ .ok files) ∨
      ∃ log files, s.logFile = some log ∧ s.files.append log s.pendingBytes = .ok files ∧
        s.flush = { s with files := files, pending := [] } := by
  cases logging : s.logFile with
  | none => exact .inl ⟨by rw [flush, logging], fun log other => by cases other⟩
  | some log =>
    cases appended : s.files.append log s.pendingBytes with
    | error e =>
      refine .inl ⟨?_, ?_⟩
      · rw [pendingBytes] at appended
        simp only [flush, logging, appended]
      · rintro _ ⟨⟩ files ok
        rw [appended] at ok
        cases ok
    | ok files =>
      refine .inr ⟨log, files, rfl, appended, ?_⟩
      rw [pendingBytes] at appended
      simp only [flush, logging, appended]

/-- Whatever is still to be logged, a file that was just written keeps its text. -/
theorem read_flush_of_write (written : s.flush.files.write (.ofString path) bytes = .ok files) :
    ({ s.flush with files := files } : Session).flush.files.read (.ofString path) = .ok bytes := by
  have read := FileTree.read_write written
  rcases flush_cases { s.flush with files := files } with
    ⟨same, -⟩ | ⟨log, after, logging, appended, flushed⟩
  · rw [same]
    exact read
  · rw [flushed]
    rcases s.flush_cases with ⟨idle, stuck⟩ | ⟨_, _, _, _, done⟩
    · -- What could not be logged before the file was written cannot be logged after it.
      rw [idle] at written logging
      exact absurd appended (FileTree.append_after_write written (stuck log logging) after)
    · have nothing : ({ s.flush with files := files } : Session).pendingBytes = [] := by
        rw [done]
        rfl
      rw [nothing] at appended
      exact FileTree.read_append_nothing read appended

end Session

end Command

open Command in
/-- An executable whose words can be written at all is read again, word for word, from its text and
from a file that holds its text. -/
theorem executable_survives_text (a : Assembler)
    (short : ∀ w ∈ a.executable, digitCount (toString w).toList ≤ Numeral.digitLimit) :
    Executable.ofText a.executableText = .ok a.executable ∧
      ∀ path s s', Action.writeText path a.executableText s = some (.ok (), s') →
        Action.readExecutable path s' = some (.ok a.executable, s'.flush) := by
  have writable : ∀ w ∈ a.executable, Numeral.isWritable w = true := fun w hw =>
    (Numeral.isWritable_iff w).mpr (short w hw)
  refine ⟨Executable.ofText_toText writable, ?_⟩
  intro path s s' wrote
  obtain ⟨files, written, rfl⟩ := Action.writeText_eq_ok.mp wrote
  exact Action.readExecutable_of_text writable (Session.read_flush_of_write written)

def holdsThreeWords : Assembler :=
  { memorySize := 16, executable := [-12, 0, 340282366920938463463374607431768211456] }

def findsDirectory : Command.Session := { files := ⟨[(["out"], .directory)]⟩ }

open Command in
theorem holdsThreeWords_survives :
    Executable.ofText holdsThreeWords.executableText =
        .ok [-12, 0, 340282366920938463463374607431768211456] ∧
      ∃ s', Action.writeText "out/words" holdsThreeWords.executableText findsDirectory =
          some (.ok (), s') ∧
        Action.readExecutable "out/words" s' =
          some (.ok [-12, 0, 340282366920938463463374607431768211456], s'.flush) := by
  obtain ⟨parsed, read⟩ := executable_survives_text holdsThreeWords (by decide +kernel)
  have wrote : Action.writeText "out/words" holdsThreeWords.executableText findsDirectory =
    some (.ok (), _) := rfl
  exact ⟨parsed, _, wrote, read _ _ _ wrote⟩

end BusMachine
