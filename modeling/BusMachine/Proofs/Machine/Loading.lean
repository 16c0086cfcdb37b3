import BusMachine.Proofs.Assembly.Layout
import BusMachine.Proofs.Machine.Invariant
import BusMachine.Proofs.Text.ExecutableText

/-!
Loading. A program that is found and has room makes a new machine of the old one, whatever was done
to it before; otherwise nothing changes.
-/
namespace BusMachine

variable {size : Nat} {m m' : Machine} {words : List Int}

namespace Memory

theorem load_blank {n : Nat} (words : List Int) (fits : words.length ≤ n) :
    (blank n).load words 0 = .ok ⟨(words ++ List.replicate (n - words.length) 0).toArray, 0⟩ := by
  have room : ¬ ((0 : Int) < 0 ∨ ((blank n).size : Int) < 0 + words.length) := by
    simp only [blank, size, Array.size_replicate]
    omega
  rw [load, if_neg room]
  simp [blank]

theorem load_blank_of_long {n : Nat} (words : List Int) (long : n < words.length) :
    (blank n).load words 0 = .error (.doesNotFit words.length n 0) := by
  have same : (blank n).size = n := Array.size_replicate
  have outside : (0 : Int) < 0 ∨ ((blank n).size : Int) < 0 + words.length := by omega
  rw [load, if_pos outside, same]

end Memory

namespace Machine

/-- A new machine with a program in its cells from address 0 on. -/
def holding (size : Nat) (words : List Int) : Machine :=
  { main := ⟨(words ++ List.replicate (size - words.length) 0).toArray, 0⟩ }

theorem reset_eq (shape : m.WellFormed size) :
    m.reset = { main := .blank size, tracing := m.tracing, writing := m.writing } := by
  have main : m.main.clear = .blank size := congrArg Memory.blank shape.main.cells
  have status : m.status.clear = .blank 2 := congrArg Memory.blank shape.status.cells
  have flags : m.flags.reset = .cleared 2 := congrArg Flags.cleared shape.flags
  rw [reset, main, status, flags]

theorem load_eq_holding (shape : m.WellFormed size) (fits : words.length ≤ size) :
    m.load words = .ok { holding size words with tracing := m.tracing, writing := m.writing } := by
  simp only [load, reset_eq shape, Memory.load_blank words fits]
  rfl

theorem load_of_long (shape : m.WellFormed size) (long : size < words.length) :
    m.load words = .error (.tooLong words.length size) := by
  have same : m.main.size = size := shape.main.cells
  simp only [load, reset_eq shape, Memory.load_blank_of_long words long, same]

theorem loadFile_of_words {text : String} (found : Executable.ofFileText text = .ok words) :
    m.loadFile text = m.load words := by
  simp only [loadFile, found]

theorem loadFile_of_error {text : String} {e : ExecutableError}
    (failed : Executable.ofFileText text = .error e) :
    m.loadFile text = .error (.text e) := by
  simp only [loadFile, failed]

theorem replace_of_ok {ε : Type} (wrap : ε → HostError) {f : Machine → Except ε Machine}
    (made : f m = .ok m') :
    replace wrap f m = .ok none m' := by
  simp only [replace, made]

theorem replace_of_error {ε : Type} (wrap : ε → HostError) {f : Machine → Except ε Machine} {e : ε}
    (failed : f m = .error e) : replace wrap f m = .error (wrap e) m := by
  simp only [replace, failed]

end Machine

theorem length_le_of_assemble {source : String} {n : Int}
    (assembled : assemble source n = .ok words) :
    words.length ≤ n := by
  obtain ⟨p, -, linked, -⟩ := Assembler.assemble_ok assembled
  obtain ⟨codes, -, -, fits⟩ := ObjectProgram.link_ok linked
  have base : p.variableBase n ≤ n := ObjectProgram.variableBase_le p n
  have below : (words.length : Int) ≤ p.variableBase n := fits
  omega

theorem assemble_nonempty {source : String} {n : Int} (assembled : assemble source n = .ok words) :
    words ≠ [] := by
  obtain ⟨p, -, linked, -⟩ := Assembler.assemble_ok assembled
  obtain ⟨codes, rfl, -, -⟩ := ObjectProgram.link_ok linked
  exact List.append_ne_nil_of_right_ne_nil _ (List.cons_ne_nil _ _)

theorem assemble_fits {source : String} (assembled : assemble source size = .ok words) :
    words.length ≤ size :=
  Int.ofNat_le.mp (length_le_of_assemble assembled)

namespace HostOperation

def loads : HostOperation → Bool
  | .load _ | .loadFile _ | .loadSource _ => true
  | _ => false

/-- The program that a loading operation finds for a machine of that size, where it has room. -/
inductive Provides (size : Nat) : HostOperation → List Int → Prop where
  | words {words : List Int} : words.length ≤ size → Provides size (.load words) words
  | file {text : String} {words : List Int} :
      Executable.Spells (Text.lines (Text.unifyNewlines text.toList)) words → words.length ≤ size →
      Provides size (.loadFile text) words
  | source {source : String} {words : List Int} : assemble source size = .ok words →
      Provides size (.loadSource source) words

/-- Why a loading operation puts no program in place: it has no room, a line of the file is neither
blank nor a word, or the source text has no executable. -/
inductive Refuses (size : Nat) : HostOperation → HostError → Prop where
  | tooLong {words : List Int} : size < words.length →
      Refuses size (.load words) (.load (.tooLong words.length size))
  | fileTooLong {text : String} {words : List Int} :
      Executable.Spells (Text.lines (Text.unifyNewlines text.toList)) words → size < words.length →
      Refuses size (.loadFile text) (.load (.tooLong words.length size))
  | unreadable {text : String} {before after : List (List Char)} {l : List Char}
      {words : List Int} :
      Text.lines (Text.unifyNewlines text.toList) = before ++ l :: after →
        Executable.Spells before words →
      Executable.Unreadable l →
      Refuses size (.loadFile text) (.load (.text ⟨1 + before.length, String.ofList (Text.trim l)⟩))
  | unassembled {source : String} {e : AssemblyError} : assemble source size = .error e →
      Refuses size (.loadSource source) (.assembly e)

theorem provides_or_refuses {op : HostOperation} (loading : op.loads = true) (size : Nat) :
    (∃ words, op.Provides size words) ∨ ∃ e, op.Refuses size e := by
  cases op with
  | load words =>
    by_cases fits : words.length ≤ size
    · exact .inl ⟨words, .words fits⟩
    · exact .inr ⟨_, .tooLong (Nat.not_le.mp fits)⟩
  | loadFile text =>
    rcases Executable.spells_or_unreadable (Text.lines (Text.unifyNewlines text.toList)) with
      ⟨words, spells⟩ | ⟨before, words, l, after, split, spells, bad⟩
    · by_cases fits : words.length ≤ size
      · exact .inl ⟨words, .file spells fits⟩
      · exact .inr ⟨_, .fileTooLong spells (Nat.not_le.mp fits)⟩
    · exact .inr ⟨_, .unreadable split spells bad⟩
  | loadSource source =>
    cases assembled : assemble source size with
    | ok words => exact .inl ⟨words, .source assembled⟩
    | error e => exact .inr ⟨_, .unassembled assembled⟩
  | _ => cases loading

theorem Provides.performs {op : HostOperation} (h : op.Provides size words)
    (shape : m.WellFormed size) :
    op.perform m =
      some (.ok none { Machine.holding size words with
        tracing := m.tracing, writing := m.writing }) := by
  have same : m.main.size = size := shape.main.cells
  cases h with
  | words fits => exact congrArg some (Machine.replace_of_ok _ (Machine.load_eq_holding shape fits))
  | file spells fits =>
    have found := Machine.loadFile_of_words (m := m) spells.readLines
    exact congrArg some (Machine.replace_of_ok _ (found.trans (Machine.load_eq_holding shape fits)))
  | source assembled =>
    refine congrArg some (Machine.replace_of_ok _ ?_)
    simp only [Machine.loadSource, same, assembled,
      Machine.load_eq_holding shape (assemble_fits assembled)]
    rfl

theorem Refuses.performs {op : HostOperation} {e : HostError} (h : op.Refuses size e)
    (shape : m.WellFormed size) : op.perform m = some (.error e m) := by
  have same : m.main.size = size := shape.main.cells
  cases h with
  | tooLong long =>
    exact congrArg some (Machine.replace_of_error _ (Machine.load_of_long shape long))
  | fileTooLong spells long =>
    have found := Machine.loadFile_of_words (m := m) spells.readLines
    exact congrArg some (Machine.replace_of_error _ (found.trans (Machine.load_of_long shape long)))
  | @unreadable text before after l words split spells bad =>
    refine congrArg some (Machine.replace_of_error _ (Machine.loadFile_of_error ?_))
    rw [Executable.ofFileText, Executable.ofChars, split]
    exact spells.readLines_unreadable bad
  | unassembled failed =>
    refine congrArg some (Machine.replace_of_error _ ?_)
    simp only [Machine.loadSource, same, failed]

/-- The outcomes of operations one after the other, each on the machine that the one before
it left. -/
def outcomes : List HostOperation → Machine →
    List (Option (EStateM.Result HostError Machine (Option StopReason)))
  | [], _ => []
  | op :: ops, m => op.perform m :: outcomes ops (op.after m)

end HostOperation

/-- A loading operation that is refused leaves the machine as it was. Any other leaves what loading
the same words makes of a new machine, but for the trace switch. -/
theorem loading_is_all_or_nothing {n : Int} (reachable : m.Reachable n) (op : HostOperation) :
    (op.loads = true → (∃ words, op.Provides m.main.size words) ∨ ∃ e, op.Refuses m.main.size e) ∧
      (∀ e, op.Refuses m.main.size e → op.perform m = some (.error e m)) ∧
      ∀ words, op.Provides m.main.size words →
        (∃ host new, host.writing = m.writing ∧ Machine.ofSize host m.main.size = .ok new) ∧
        ∀ host new, host.writing = m.writing → Machine.ofSize host m.main.size = .ok new →
          ∃ start m', (HostOperation.load words).perform new = some (.ok none start) ∧
            op.perform m = some (.ok none m') ∧ m' = { start with tracing := m.tracing } ∧
            ∀ (later : List HostOperation) (on : Bool),
              HostOperation.outcomes later { m' with tracing := on } =
                HostOperation.outcomes later { start with tracing := on } := by
  have shape := reachable.sound.shape
  have same : m.main.size = n.toNat := shape.main.cells
  refine ⟨fun loading => HostOperation.provides_or_refuses loading _, ?_, ?_⟩
  · intro e refuses
    exact (same ▸ refuses).performs shape
  · intro words provides
    refine ⟨reachable.size_eq ▸ reachable.host, fun host new writing made => ?_⟩
    have fits : words.length ≤ m.main.size := by
      cases provides with
      | words fits => exact fits
      | file _ fits => exact fits
      | source assembled => exact assemble_fits assembled
    obtain ⟨rfl, -⟩ := Machine.ofSize_eq made
    have blank := (Machine.ofSize_sound made).shape
    have room : words.length ≤ (m.main.size : Int).toNat := fits
    have loaded := (HostOperation.Provides.words room).performs blank
    refine ⟨_, _, loaded, (same ▸ provides).performs shape, ?_, ?_⟩
    · rw [writing, Int.toNat_natCast, same]
    · intro later on
      rw [writing, Int.toNat_natCast, same]

/-- A machine that a call left in the middle of its work, for want of room on the stack. -/
def faultedInCall : Machine :=
  HostOperation.after .step (HostOperation.after (.load [19, 0])
    (HostOperation.after (.setTracing true) { main := .blank 16 }))

theorem faulted_in_call_loads :
    faultedInCall.Reachable 16 ∧ faultedInCall.stop = some .fault ∧
      (HostOperation.loadFile "9\n5 x\n").perform faultedInCall =
        some (.error (.load (.text ⟨2, "5 x"⟩)) faultedInCall) ∧
      ∃ start,
        (HostOperation.load [9, 16, 7, 9, 16, 6, 9, 5, 1, -1]).perform { main := .blank 16 } =
          some (.ok none start) ∧
        (HostOperation.loadSource "move 5 %reg0").perform faultedInCall =
          some (.ok none { start with tracing := true }) := by
  have reachable : faultedInCall.Reachable 16 := .after _ (.after _ (.after _ (.new {} rfl)))
  have tracing : faultedInCall.tracing = true := by decide +kernel
  have writing : faultedInCall.writing = .limited := by decide +kernel
  have size : faultedInCall.main.size = 16 := by decide +kernel
  have assembled : assemble "move 5 %reg0" faultedInCall.main.size =
    .ok [9, 16, 7, 9, 16, 6, 9, 5, 1, -1] := by
    decide +kernel
  obtain ⟨-, -, loads⟩ := loading_is_all_or_nothing reachable (.loadSource "move 5 %reg0")
  have blank : Machine.ofSize {} faultedInCall.main.size = .ok { main := .blank 16 } := by
    rw [size]; rfl
  obtain ⟨start, m', loaded, performed, rfl, -⟩ :=
    (loads _ (.source assembled)).2 {} _ writing.symm blank
  obtain ⟨-, refuses, -⟩ := loading_is_all_or_nothing reachable (.loadFile "9\n5 x\n")
  have split : Text.lines (Text.unifyNewlines "9\n5 x\n".toList) =
      [['9']] ++ ['5', ' ', 'x'] :: [] := by
    decide +kernel
  have spells : Executable.Spells [['9']] [9] := .word (by decide) (by decide +kernel) .nil
  have bad : Executable.Unreadable ['5', ' ', 'x'] := by
    refine ⟨by decide, fun w read => ?_⟩
    have failed : Numeral.read "5 x" = .error (.notInteger "5 x") := by decide +kernel
    cases failed.symm.trans read
  have refused := refuses _ (.unreadable split spells bad)
  exact ⟨reachable, by decide +kernel, refused, start, loaded, tracing ▸ performed⟩

end BusMachine
