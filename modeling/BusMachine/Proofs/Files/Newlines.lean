import BusMachine.Proofs.Command.Session
import BusMachine.Proofs.Text.Encoding
import BusMachine.Proofs.Text.Newlines
import BusMachine.Assembly.Assembler
import BusMachine.Machine.Load

/-!
A file says what its text says. Reading it unifies the line ends, and that changes neither the words
of an executable text nor the line that is reported, and nothing of a source text in which carriage
returns only end lines.
-/
namespace BusMachine

open Text

namespace Statement

theorem ofLine_endsAlike {l l' : List Char} (h : EndsAlike l l') (n : Nat) :
    ofLine n l = ofLine n l' := by
  have stripped : strip l = strip l' := (h.takeWhile (by decide)).trim_eq
  rw [ofLine, ofLine, h.trimEndOf_eq, stripped]

theorem ofLines_endsAlike {ls ls' : List (List Char)} (h : List.Forall₂ EndsAlike ls ls')
    (n : Nat) :
    ofLines n ls = ofLines n ls' := by
  induction h generalizing n with
  | nil => rfl
  | @cons l l' ls ls' first _ ih =>
    have stripped : strip l = strip l' := (first.takeWhile (by decide)).trim_eq
    rw [ofLines, ofLines, stripped, ih, ofLine_endsAlike first]

theorem ofSource_unified {source : String} (paired : Paired source.toList) :
    ofSource (unified source) = ofSource source := by
  rw [ofSource, ofSource, unified, String.toList_ofList]
  exact (ofLines_endsAlike (splitLines_unifyNewlines paired) 1).symm

end Statement

theorem Assembler.parse_unified (a : Assembler) {source : String} (paired : Paired source.toList) :
    a.parse (unified source) = a.parse source := by
  simp only [parse, Draft.ofSource, Statement.ofSource_unified paired]

theorem Executable.ofText_unified (t : String) : ofText (unified t) = ofText t := by
  rw [ofText, ofText, ofChars, ofChars, unified, String.toList_ofList, lines_unifyNewlines]

namespace Command.Action

theorem flush_bind {α : Type} (f : Session → Action α) (s : Session) :
    (modify Session.flush >>= fun _ => get >>= f : Action α) s = f s.flush s.flush := rfl

theorem readText_eq (path : String) (s : Session) :
    readText path s = match s.flush.files.read (.ofString path) with
      | .error e => some (.error (.file e), s.flush)
      | .ok bytes => match Utf8.decode bytes with
        | .error e => some (.error (.bytes e), s.flush)
        | .ok cs => some (.ok (String.ofList (unifyNewlines cs)), s.flush) := by
  rw [readText, flush_bind]
  cases s.flush.files.read (.ofString path) with
  | error e => rfl
  | ok bytes =>
    have read : (orFail .file (.ok bytes) : Action (List UInt8)) s.flush =
      some (.ok bytes, s.flush) := rfl
    rw [bind_of_ok read]
    dsimp only
    cases Utf8.decode bytes <;> rfl

/-- The file at that path holds the text, once what is still to be logged was written. -/
def Holds (s : Session) (path text : String) : Prop :=
  s.flush.files.read (.ofString path) = .ok (Utf8.encode text.toList)

variable {s : Session} {path text : String}

theorem readText_of_holds (h : Holds s path text) :
    readText path s = some (.ok (unified text), s.flush) := by
  have bytes : s.flush.files.read (.ofString path) = .ok (Utf8.encode text.toList) := h
  rw [readText_eq, bytes]
  simp only [Utf8.decode_encode, unified]

theorem readExecutable_of_holds (h : Holds s path text) :
    readExecutable path s = orFail (Failure.load ∘ .text) (Executable.ofText text) s.flush := by
  rw [readExecutable, bind_of_ok (readText_of_holds h), Executable.ofText_unified]

end Command.Action

open Command in
/-- A file is read as the text that it holds with unified line ends. Of executable text these make
no difference to the words or to the reported line, and of source text none at all if each carriage
return stands before a line feed. -/
theorem files_say_what_their_texts_say :
    (∀ path text s, Action.Holds s path text →
        Action.readText path s = some (.ok (unified text), s.flush)) ∧
      (∀ text, Executable.ofText (unified text) = Executable.ofText text ∧
        ∀ m : Machine, m.loadFile text = (Executable.ofText text).mapError LoadError.text >>=
          m.load) ∧
      ∀ source : String, Paired source.toList →
        (∀ a : Assembler, a.parse (unified source) = a.parse source) ∧
        ∀ size, assembleFileText source size = assemble source size := by
  refine ⟨fun path text s => Action.readText_of_holds, ?_, ?_⟩
  · intro text
    refine ⟨Executable.ofText_unified text, fun m => ?_⟩
    have file : Executable.ofFileText text = Executable.ofText text := by
      rw [← Executable.ofText_unified, Executable.ofText, unified, String.toList_ofList,
        Executable.ofFileText]
    rw [Machine.loadFile, file]
    cases Executable.ofText text <;> rfl
  · intro source paired
    refine ⟨fun a => a.parse_unified paired, fun size => ?_⟩
    have unify : String.ofList (unifyNewlines source.toList) = unified source := rfl
    simp only [assembleFileText, assemble, Assembler.assemble, unify,
      Assembler.parse_unified _ paired]

def returnsSource : String := "n\r\n; first\r\n\r\ninc n ; second\r\n"

/-- Every kind of line end that a file may hold, and a word that is none. -/
def returnsWords : String := "9\r\n\r63\n\r7\r\nseven\r-1"

def findsReturns : Command.Session :=
  { files := ⟨[(["words"], .file (Utf8.encode returnsWords.toList))]⟩ }

open Command in
theorem files_with_returns_say_what_their_texts_say :
    Action.readText "words" findsReturns =
        some (.ok "9\n\n63\n\n7\nseven\n-1", findsReturns.flush) ∧
      Executable.ofText (unified returnsWords) = .error ⟨6, "seven"⟩ ∧
      Executable.ofText returnsWords = .error ⟨6, "seven"⟩ ∧
      (Assembler.ofSize 64).parse (unified returnsSource) =
        (Assembler.ofSize 64).parse returnsSource ∧
      assembleFileText returnsSource 64 = .ok [9, 63, 7, 9, 63, 6, 11, 63, -1] := by
  obtain ⟨read, executable, source⟩ := files_say_what_their_texts_say
  have same := (executable returnsWords).1
  obtain ⟨parsed, assembled⟩ := source returnsSource (by decide)
  have holds : Action.Holds findsReturns "words" returnsWords := rfl
  have refused : Executable.ofText returnsWords = .error ⟨6, "seven"⟩ := by decide +kernel
  have words : assemble returnsSource 64 = .ok [9, 63, 7, 9, 63, 6, 11, 63, -1] := by decide +kernel
  exact ⟨read _ _ _ holds, same.trans refused, refused, parsed _, (assembled 64).trans words⟩

end BusMachine
