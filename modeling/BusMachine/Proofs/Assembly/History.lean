import BusMachine.Proofs.Assembly.Layout

/-!
What an assembler remembers. Over any history of calls it keeps the program and the executable of
the last source text that assembled, both or neither, and the errors of the last text that was
parsed and of no other.
-/
namespace BusMachine

/-- A call of an assembler, or a change of the memory size that it links for. -/
inductive AssemblerOperation where
  | assemble (source : String)
  | parse (source : String)
  | link (p : ObjectProgram)
  | setMemorySize (size : Int)
deriving DecidableEq, Repr

namespace AssemblerOperation

/-- The operation assembles a source text, and the assembler accepts it. -/
def Succeeds (op : AssemblerOperation) (a : Assembler) : Prop :=
  ∃ source words, op = assemble source ∧ (a.assemble source).2 = .ok words

/-- The memory size in force after some operations: the last one that was set. -/
def sizeAfter (size : Int) : List AssemblerOperation → Int
  | [] => size
  | setMemorySize size' :: ops => sizeAfter size' ops
  | _ :: ops => sizeAfter size ops

end AssemblerOperation

namespace Assembler

open AssemblerOperation

def perform (a : Assembler) : AssemblerOperation → Assembler
  | .assemble source => (a.assemble source).1
  | .parse source => (a.parse source).1
  | .link _ => a
  | .setMemorySize size => { a with memorySize := size }

def after (a : Assembler) : List AssemblerOperation → Assembler
  | [] => a
  | op :: ops => (a.perform op).after ops

/-- None of the operations, each on the assembler that the ones before it left, assembles
anything. -/
def Fruitless (a : Assembler) : List AssemblerOperation → Prop
  | [] => True
  | op :: ops => ¬ op.Succeeds a ∧ (a.perform op).Fruitless ops

variable {a b : Assembler} {source : String} {p : ObjectProgram} {words : List Int}
  {op : AssemblerOperation}
  {ops : List AssemblerOperation}

/-- The two parts of an assembler that a successful call replaces. -/
def outputs (a : Assembler) : Option ObjectProgram × List Int := (a.program, a.executable)

theorem parse_outputs (a : Assembler) (source : String) :
    (a.parse source).1.outputs = a.outputs := by
  rw [parse]
  rcases Draft.ofSource source with ⟨d, _ | e⟩ <;> rfl

theorem parse_pending (a : Assembler) (source : String) :
    (a.parse source).1.pending = (Draft.ofSource source).1.errors := by
  rw [parse]
  rcases Draft.ofSource source with ⟨d, _ | e⟩ <;> rfl

theorem parse_answer (a b : Assembler) (source : String) :
    (a.parse source).2 = (b.parse source).2 := by
  simp only [parse]
  rcases Draft.ofSource source with ⟨d, _ | e⟩ <;> rfl

theorem pending_of_parse_ok (h : (a.parse source).2 = .ok p) : (a.parse source).1.pending = [] := by
  obtain ⟨d, draft, clean, -⟩ := parse_ok h
  rw [parse_pending, draft, clean]

theorem pending_of_parse_error {e : ParseError} {es : List ParseError}
    (h : (a.parse source).2 = .error (.parse e es)) : (a.parse source).1.pending = e :: es := by
  rw [parse_pending]
  rw [parse] at h
  rcases draft : Draft.ofSource source with ⟨d, _ | stopped⟩
  · rw [draft] at h
    simp only [Draft.finish] at h
    split at h
    · cases h
    · next errors =>
      cases h
      exact errors
  · rw [draft] at h
    cases h

theorem assemble_of_parse_ok (h : (a.parse source).2 = .ok p) :
    a.assemble source = (a.parse source).1.install p := by
  rw [assemble]
  rcases parsed : a.parse source with ⟨b, e | q⟩
  · rw [parsed] at h
    cases h
  · rw [parsed] at h
    cases h
    rfl

theorem assemble_of_parse_error {e : AssemblyError} (h : (a.parse source).2 = .error e) :
    a.assemble source = ((a.parse source).1, .error e) := by
  rw [assemble]
  rcases parsed : a.parse source with ⟨b, e' | q⟩
  · rw [parsed] at h
    cases h
    rfl
  · rw [parsed] at h
    cases h

theorem install_of_ok (h : a.link p = .ok words) :
    a.install p = ({ a with program := some p, executable := words }, .ok words) := by
  rw [install, h]

theorem install_of_error {e : AssemblyError} (h : a.link p = .error e) :
    a.install p = (a, .error e) := by
  rw [install, h]

theorem install_memorySize (a : Assembler) (p : ObjectProgram) :
    (a.install p).1.memorySize = a.memorySize := by
  rw [install]
  split <;> rfl

theorem install_pending (a : Assembler) (p : ObjectProgram) :
    (a.install p).1.pending = a.pending := by
  rw [install]
  split <;> rfl

theorem assemble_memorySize (a : Assembler) (source : String) :
    (a.assemble source).1.memorySize = a.memorySize := by
  cases parsed : (a.parse source).2 with
  | ok p => rw [assemble_of_parse_ok parsed, install_memorySize, parse_memorySize]
  | error e => rw [assemble_of_parse_error parsed, parse_memorySize]

theorem assemble_pending (a : Assembler) (source : String) :
    (a.assemble source).1.pending = (a.parse source).1.pending := by
  cases parsed : (a.parse source).2 with
  | ok p => rw [assemble_of_parse_ok parsed, install_pending]
  | error e => rw [assemble_of_parse_error parsed]

theorem assemble_outputs_of_ok (h : (a.assemble source).2 = .ok words) :
    ∃ p, (a.parse source).2 = .ok p ∧ p.link a.memorySize = .ok words ∧
      (a.assemble source).1.outputs = (some p, words) := by
  obtain ⟨p, parsed, linked, -⟩ := assemble_ok h
  have link : (a.parse source).1.link p = .ok words := by rw [link, parse_memorySize, linked]
  refine ⟨p, parsed, linked, ?_⟩
  rw [assemble_of_parse_ok parsed, install_of_ok link]
  rfl

theorem assemble_outputs_of_error {e : AssemblyError} (h : (a.assemble source).2 = .error e) :
    (a.assemble source).1.outputs = a.outputs := by
  cases parsed : (a.parse source).2 with
  | error e' => rw [assemble_of_parse_error parsed, parse_outputs]
  | ok p =>
    rw [assemble_of_parse_ok parsed] at h ⊢
    cases linked : (a.parse source).1.link p with
    | ok words =>
      rw [install_of_ok linked] at h
      cases h
    | error e' => rw [install_of_error linked, parse_outputs]

theorem perform_outputs (fails : ¬ op.Succeeds a) : (a.perform op).outputs = a.outputs := by
  cases op with
  | assemble source =>
    cases assembled : (a.assemble source).2 with
    | ok words => exact absurd ⟨source, words, rfl, assembled⟩ fails
    | error e => exact assemble_outputs_of_error assembled
  | parse source => exact parse_outputs a source
  | link p => rfl
  | setMemorySize size => rfl

theorem Fruitless.outputs (h : a.Fruitless ops) : (a.after ops).outputs = a.outputs := by
  induction ops generalizing a with
  | nil => rfl
  | cons op ops ih =>
    rw [after, ih h.2]
    exact perform_outputs h.1

theorem after_append (a : Assembler) (before later : List AssemblerOperation) :
    a.after (before ++ later) = (a.after before).after later := by
  induction before generalizing a with
  | nil => rfl
  | cons op before ih => exact ih (a.perform op)

theorem after_memorySize (a : Assembler) (ops : List AssemblerOperation) :
    (a.after ops).memorySize = sizeAfter a.memorySize ops := by
  induction ops generalizing a with
  | nil => rfl
  | cons op ops ih =>
    rw [after, ih]
    cases op with
    | assemble source =>
      show sizeAfter (a.assemble source).1.memorySize ops = sizeAfter a.memorySize ops
      rw [assemble_memorySize]
    | parse source =>
      show sizeAfter (a.parse source).1.memorySize ops = sizeAfter a.memorySize ops
      rw [parse_memorySize]
    | link p => rfl
    | setMemorySize size => rfl

theorem fruitless_or_last_success (a : Assembler) (ops : List AssemblerOperation) :
    a.Fruitless ops ∨ ∃ before op later, ops = before ++ op :: later ∧
      op.Succeeds (a.after before) ∧
      ((a.after before).perform op).Fruitless later := by
  -- A success in the rest of the history comes after the first call, which counts only if the rest
  -- has none.
  induction ops generalizing a with
  | nil => exact .inl trivial
  | cons op ops ih =>
    rcases ih (a.perform op) with none | ⟨before, last, later, rfl, succeeds, none⟩
    · by_cases succeeds : op.Succeeds a
      · exact .inr ⟨[], op, ops, rfl, succeeds, none⟩
      · exact .inl ⟨succeeds, none⟩
    · exact .inr ⟨op :: before, last, later, rfl, succeeds, none⟩

/-- An assembler holds what the last successful call made, at the memory size of that call; nothing
else changes it, and the errors are those of the last source text that was parsed. -/
theorem assembler_keeps_last_success {size : Int} (made : a = (ofSize size).after ops) :
    ((ofSize size).Fruitless ops ∧ a.program = none ∧ a.executable = [] ∧ a.listing = .ok "" ∨
      ∃ before source later b p words, ops = before ++ .assemble source :: later ∧
        b = (ofSize size).after before ∧ (b.assemble source).2 = .ok words ∧
        (b.assemble source).1.Fruitless later ∧ (b.parse source).2 = .ok p ∧
        p.link (sizeAfter size before) = .ok words ∧ a.program = some p ∧ a.executable = words) ∧
      (∀ op : AssemblerOperation, ¬ op.Succeeds a →
        (a.perform op).program = a.program ∧ (a.perform op).executable = a.executable ∧
        (a.perform op).executableText = a.executableText) ∧
      ∀ source : String,
        (∀ b : Assembler, (a.parse source).2 = (b.parse source).2) ∧
        (∀ p, (a.parse source).2 = .ok p → (a.parse source).1.pending = []) ∧
        (∀ e es, (a.parse source).2 = .error (.parse e es) → (a.parse source).1.pending = e :: es) ∧
        (a.assemble source).1.pending = (a.parse source).1.pending := by
  refine ⟨?_, ?_, ?_⟩
  · rcases fruitless_or_last_success (ofSize size) ops with
      none | ⟨before, op, later, split, succeeds, none⟩
    · have same : a.outputs = (ofSize size).outputs := made ▸ none.outputs
      have program : a.program = Option.none := congrArg Prod.fst same
      exact .inl ⟨none, program, congrArg Prod.snd same, by rw [listing, program]⟩
    · obtain ⟨source, words, rfl, assembled⟩ := succeeds
      obtain ⟨p, parsed, linked, kept⟩ := assemble_outputs_of_ok assembled
      have same : a.outputs = (some p, words) := by
        rw [made, split, after_append]
        exact none.outputs.trans kept
      rw [after_memorySize] at linked
      exact .inr ⟨before, source, later, _, p, words, split, rfl, assembled, none, parsed, linked,
        congrArg Prod.fst same, congrArg Prod.snd same⟩
  · intro op fails
    have same := perform_outputs fails
    have executable := congrArg Prod.snd same
    exact ⟨congrArg Prod.fst same, executable, congrArg Executable.toText executable⟩
  · intro source
    exact ⟨fun b => parse_answer a b source, fun p => pending_of_parse_ok,
      fun e es => pending_of_parse_error, assemble_pending a source⟩

/-- One call succeeds. Before it a label is missing, and after it the memory is too small. -/
def oneSuccess : List AssemblerOperation :=
  [.assemble "jmp end", .setMemorySize 10, .assemble "n\ninc n", .setMemorySize 8,
    .assemble "ret\nret", .parse "9 n"]

theorem one_success_is_kept :
    ∃ before source later b p words, oneSuccess = before ++ .assemble source :: later ∧
      b = (ofSize 64).after before ∧ (b.assemble source).2 = .ok words ∧
        p.link (sizeAfter 64 before) = .ok words ∧
      ((ofSize 64).after oneSuccess).program = some p ∧
        ((ofSize 64).after oneSuccess).executable = words ∧
      words = [9, 9, 7, 9, 9, 6, 11, 9, -1] := by
  have executable : ((ofSize 64).after oneSuccess).executable = [9, 9, 7, 9, 9, 6, 11, 9, -1] := by
    decide +kernel
  obtain ⟨last, -, -⟩ := assembler_keeps_last_success (a := (ofSize 64).after oneSuccess) rfl
  rcases last with ⟨-, -, empty, -⟩ |
    ⟨before, source, later, b, p, words, split, reached, assembled, -, -, linked, program, kept⟩
  · rw [executable] at empty
    cases empty
  · exact ⟨before, source, later, b, p, words, split, reached, assembled, linked, program, kept,
      kept.symm.trans executable⟩

end Assembler

end BusMachine
