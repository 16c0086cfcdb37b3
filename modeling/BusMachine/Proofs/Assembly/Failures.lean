import BusMachine.Proofs.Assembly.Layout
import BusMachine.Proofs.Text.PlainText
import BusMachine.Proofs.Text.Writable

/-!
Why a source text has no executable. Bad statements are reported, and so are operands without a
number and a program that is too large; only numbers of too many digits end the assembly without
such a report. The first numeral of too many digits that is read as an operand ends the reading,
whatever bad statements stand before or behind it.
-/
namespace BusMachine

open Text

/-- The list begins with elements that are passed, and the first of the others stops with
that answer. -/
inductive StopsIn {α β : Type} (passes : α → Prop) (stops : α → β → Prop) : List α → β → Prop where
  | here {x : α} {xs : List α} {b : β} : stops x b → StopsIn passes stops (x :: xs) b
  | later {x : α} {xs : List α} {b : β} : passes x → StopsIn passes stops xs b →
      StopsIn passes stops (x :: xs) b

namespace Grammar

/-- An immediate with more digits than are read. -/
def Overlong (word : String) (digits : Nat) : Prop :=
  HasKind word .immediate ∧ digitCount word.toList = digits ∧ Numeral.digitLimit < digits

def Legible (word : String) : Prop := (∃ kind, HasKind word kind) ∧ ∀ digits, ¬ Overlong word digits

/-- An instruction of which an operand is too long, and all operands before it are legible. -/
def Breaks (text : String) (digits : Nat) : Prop :=
  (∀ name, ¬ Label text name) ∧ ∃ first operands, Statement.wordsOf text = first :: operands ∧
    Mnemonic first ∧
    StopsIn Legible Overlong operands digits

variable {word text : String} {e : NumeralError}

theorem ofWord_of_immediate (h : Unended word) {n : Int} (decimal : Decimal word.toList n) :
    Operand.ofWord word = (Numeral.read word).map (fun n => some (.literal (toString n))) := by
  have immediate : HasKind word .immediate := ⟨n, decimal⟩
  simp only [Operand.ofWord, h.same]
  split
  · next name spelled =>
    obtain ⟨c, rest, first, kind⟩ := immediate.first
    rw [spelled] at first
    cases first
    exact absurd kind (by decide)
  · split
    · next named =>
      have symbol : HasKind word .memory := isName_iff.mp named
      exact absurd (symbol.unique immediate) (by decide)
    · rw [if_pos (isImmediate_iff.mpr ⟨n, decimal⟩)]

theorem ofWord_error_iff (h : Unended word) :
    Operand.ofWord word = .error e ↔ ∃ digits, Overlong word digits ∧ e = .tooLong digits := by
  constructor
  · intro failed
    have immediate : HasKind word .immediate := by
      simp only [Operand.ofWord, h.same] at failed
      split at failed
      · split at failed <;> cases failed
      · split at failed
        · cases failed
        · split at failed
          · next immediate => exact isImmediate_iff.mp immediate
          · cases failed
    obtain ⟨n, decimal⟩ := immediate
    rw [ofWord_of_immediate h decimal, decimal.read] at failed
    split at failed
    · next long =>
      cases failed
      exact ⟨_, ⟨⟨n, decimal⟩, rfl, long⟩, rfl⟩
    · cases failed
  · rintro ⟨digits, ⟨⟨n, decimal⟩, rfl, long⟩, rfl⟩
    rw [ofWord_of_immediate h decimal, decimal.read, if_pos long]
    rfl

theorem legible_iff (h : Unended word) :
    Legible word ↔ ∃ o, Operand.ofWord word = .ok (some o) := by
  have overlong : ∀ e, Operand.ofWord word = .error e → ∃ digits, Overlong word digits := by
    intro e failed
    obtain ⟨digits, long, -⟩ := (ofWord_error_iff h).mp failed
    exact ⟨digits, long⟩
  constructor
  · rintro ⟨⟨kind, has⟩, short⟩
    rcases ofWord_cases h with ⟨o, read, -⟩ | ⟨-, none⟩ | ⟨e, failed, -⟩
    · exact ⟨o, read⟩
    · exact absurd has (none kind)
    · obtain ⟨digits, long⟩ := overlong e failed
      exact absurd long (short digits)
  · rintro ⟨o, read⟩
    rcases ofWord_cases h with ⟨_, _, is⟩ | ⟨none, -⟩ | ⟨e, failed, -⟩
    · refine ⟨⟨_, is.hasKind⟩, fun digits long => ?_⟩
      rw [(ofWord_error_iff h).mpr ⟨digits, long, rfl⟩] at read
      cases read
    · rw [none] at read
      cases read
    · rw [failed] at read
      cases read

theorem readOperands_numeral_iff (text : String) {words : List String}
    (unended : ∀ w ∈ words, Unended w) :
    Draft.readOperands text words = .error (.numeral e) ↔
      ∃ digits, StopsIn Legible Overlong words digits ∧ e = .tooLong digits := by
  induction words with
  | nil =>
    constructor
    · intro h
      cases h
    · rintro ⟨_, stops, -⟩
      cases stops
  | cons w ws ih =>
    have here := unended w (List.mem_cons_self ..)
    have rest := ih (fun v hv => unended v (List.mem_cons_of_mem w hv))
    rw [Draft.readOperands]
    cases read : Operand.ofWord w with
    | error e' =>
      obtain ⟨digits, long, rfl⟩ := (ofWord_error_iff here).mp read
      constructor
      · intro h
        cases h
        exact ⟨digits, .here long, rfl⟩
      · rintro ⟨digits', stops, rfl⟩
        cases stops with
        | here long' =>
          obtain rfl : digits = digits' := long.2.1.symm.trans long'.2.1
          rfl
        | later legible _ => exact absurd long (legible.2 digits)
    | ok o =>
      have short : ∀ digits, ¬ Overlong w digits := by
        intro digits long
        rw [(ofWord_error_iff here).mpr ⟨digits, long, rfl⟩] at read
        cases read
      cases o with
      -- A word that is no operand at all ends the reading with a bad statement, even if an overlong
      -- one comes later.
      | none =>
        constructor
        · intro h
          cases h
        · rintro ⟨digits, stops, -⟩
          cases stops with
          | here long => exact absurd long (short digits)
          | later legible _ =>
            obtain ⟨o, some⟩ := (legible_iff here).mp legible
            rw [some] at read
            cases read
      | some o =>
        have same : (Draft.readOperands text ws).map (o :: ·) = .error (.numeral e) ↔
            Draft.readOperands text ws = .error (.numeral e) := by
          cases Draft.readOperands text ws <;> simp [Except.map]
        simp only [same, rest]
        constructor
        · rintro ⟨digits, stops, rfl⟩
          exact ⟨digits, .later ((legible_iff here).mpr ⟨o, read⟩) stops, rfl⟩
        · rintro ⟨digits, stops, rfl⟩
          cases stops with
          | here long => exact absurd long (short digits)
          | later _ stops => exact ⟨digits, stops, rfl⟩

theorem readInstruction_numeral_iff (text : String) :
    Draft.readInstruction text = .error (.numeral e) ↔
      ∃ digits, (∃ first operands, Statement.wordsOf text = first :: operands ∧ Mnemonic first ∧
        StopsIn Legible Overlong operands digits) ∧ e = .tooLong digits := by
  rw [Draft.readInstruction]
  cases split : Statement.wordsOf text with
  | nil => simp
  | cons first words =>
    have unended : ∀ w ∈ words, Unended w := fun w hw =>
      unended_word text (split ▸ List.mem_cons_of_mem _ hw)
    have only : ∀ digits,
      (∃ first' operands, first :: words = first' :: operands ∧ Mnemonic first' ∧
        StopsIn Legible Overlong operands digits) ↔ Mnemonic first ∧
          StopsIn Legible Overlong words digits := by
      intro digits
      constructor
      · rintro ⟨_, _, ⟨⟩, rest⟩
        exact rest
      · exact fun rest => ⟨first, words, rfl, rest⟩
    simp only [only]
    by_cases mnemonic : Mnemonic first
    · simp only [spellsMnemonic_iff.mpr mnemonic, Bool.not_true, Bool.false_eq_true, if_false,
        mnemonic, true_and]
      rw [← readOperands_numeral_iff text unended]
      cases read : Draft.readOperands text words with
      | error e' => simp [bind, Except.bind]
      | ok operands =>
        simp only [bind, Except.bind]
        split <;> simp
    · have unspelled : Statement.spellsMnemonic first = false := by
        rw [← Bool.not_eq_true, spellsMnemonic_iff]
        exact mnemonic
      simp only [unspelled, Bool.not_false, if_true, mnemonic, false_and, exists_false, iff_false]
      split <;> simp

end Grammar

open Grammar

namespace Draft

variable {d d' : Draft} {s : Statement} {ss : List Statement} {source : String} {e : NumeralError}

theorem add_error_iff (h : Unended s.text) :
    d.add s = .error e ↔ ∃ digits, Breaks s.text digits ∧ e = .tooLong digits := by
  rw [add]
  cases found : Statement.label? s.text with
  | some name =>
    have label := (label?_eq_some_iff h).mp found
    constructor
    · intro h
      cases h
    · rintro ⟨digits, ⟨unlabelled, -⟩, -⟩
      exact absurd label (unlabelled name)
  | none =>
    have unlabelled := (label?_eq_none_iff h).mp found
    simp only [Breaks, unlabelled, not_false_eq_true, implies_true, true_and,
      ← readInstruction_numeral_iff, addInstruction]
    cases readInstruction s.text with
    | ok r => simp
    | error e' => cases e' <;> simp

/-- Reading ends at the first statement of which an operand is too long. -/
theorem addAll_error_iff (unended : ∀ s ∈ ss, Unended s.text) (d : Draft) :
    (d.addAll ss).2 = some e ↔
      ∃ digits, StopsIn (fun s => ∀ n, ¬ Breaks s.text n) (fun s => Breaks s.text) ss digits ∧
        e = .tooLong digits := by
  induction ss generalizing d with
  | nil =>
    constructor
    · intro h
      cases h
    · rintro ⟨_, stops, -⟩
      cases stops
  | cons s ss ih =>
    have here := unended s (List.mem_cons_self ..)
    cases added : d.add s with
    | error e' =>
      obtain ⟨digits, breaks, rfl⟩ := (add_error_iff here).mp added
      rw [addAll_of_error ss added]
      constructor
      · rintro ⟨⟩
        exact ⟨digits, .here breaks, rfl⟩
      · rintro ⟨digits', stops, rfl⟩
        cases stops with
        | here breaks' =>
          rw [(add_error_iff here).mpr ⟨digits', breaks', rfl⟩] at added
          exact congrArg some (Except.error.inj added).symm
        | later whole _ => exact absurd breaks (whole digits)
    | ok d' =>
      have whole : ∀ digits, ¬ Breaks s.text digits := by
        intro digits breaks
        rw [(add_error_iff here).mpr ⟨digits, breaks, rfl⟩] at added
        cases added
      rw [addAll_of_ok ss added, ih (fun t ht => unended t (List.mem_cons_of_mem s ht))]
      constructor
      · rintro ⟨digits, stops, rfl⟩
        exact ⟨digits, .later whole stops, rfl⟩
      · rintro ⟨digits, stops, rfl⟩
        cases stops with
        | here breaks => exact absurd breaks (whole digits)
        | later _ stops => exact ⟨digits, stops, rfl⟩

theorem ofSource_error_iff :
    (ofSource source).2 = some e ↔
      ∃ digits,
        StopsIn (fun s => ∀ n, ¬ Breaks s.text n) (fun s =>
        Breaks s.text) (divided source).2 digits ∧
        e = .tooLong digits :=
  addAll_error_iff (fun _ => unended_divided) _

/-- Every immediate that a draft holds can be read again. -/
def Readable (d : Draft) : Prop :=
  ∀ i ∈ d.instructions, ∀ text, .literal text ∈ i.operands → ∃ n, Numeral.read text = .ok n

theorem ofWord_literal {word text : String} (h : Operand.ofWord word = .ok (some (.literal text))) :
    ∃ n, Numeral.read text = .ok n := by
  simp only [Operand.ofWord] at h
  split at h
  · split at h <;> cases h
  · split at h
    · cases h
    · split at h
      · cases read : Numeral.read word with
        | error e =>
          rw [read] at h
          cases h
        | ok n =>
          rw [read] at h
          cases h
          exact ⟨n, Numeral.read_toString_of_read read⟩
      · cases h

theorem readOperands_literal {text : String} {words : List String} {operands : List Operand}
    (h : readOperands text words = .ok operands) {numeral : String}
    (mem : .literal numeral ∈ operands) :
    ∃ n, Numeral.read numeral = .ok n := by
  induction words generalizing operands with
  | nil =>
    cases h
    cases mem
  | cons w ws ih =>
    rw [readOperands] at h
    split at h
    · cases h
    · cases h
    · next o read =>
      cases rest : readOperands text ws with
      | error e =>
        rw [rest] at h
        cases h
      | ok os =>
        rw [rest] at h
        cases h
        rcases List.mem_cons.mp mem with rfl | mem
        · exact ofWord_literal read
        · exact ih rest mem

theorem readInstruction_literal {text : String} {c : Opcode} {operands : List Operand}
    (h : readInstruction text = .ok (c, operands)) {numeral : String}
    (mem : .literal numeral ∈ operands) :
    ∃ n, Numeral.read numeral = .ok n := by
  simp only [readInstruction] at h
  split at h
  · cases h
  · next first words split =>
    split at h
    · split at h <;> cases h
    · cases read : readOperands text words with
      | error e =>
        rw [read] at h
        cases h
      | ok os =>
        rw [read] at h
        simp only [bind, Except.bind] at h
        split at h
        · cases h
          exact readOperands_literal read mem
        · cases h

theorem Readable.add (h : d.Readable) (added : d.add s = .ok d') : d'.Readable := by
  rw [Draft.add] at added
  split at added
  · next name _ =>
    cases added
    rw [addLabel]
    split
    · exact h
    · split <;> exact h
  · rw [addInstruction] at added
    split at added
    · next c operands read =>
      cases added
      intro i mem
      rcases List.mem_append.mp mem with mem | mem
      · exact h i mem
      · cases List.mem_singleton.mp mem
        exact fun _ literal => readInstruction_literal read literal
    · cases added
      exact h
    · cases added

theorem Readable.addAll (h : d.Readable) (ss : List Statement) : (d.addAll ss).1.Readable := by
  induction ss generalizing d with
  | nil => exact h
  | cons s ss ih =>
    cases added : d.add s with
    | error e =>
      rw [addAll_of_error ss added]
      exact h
    | ok next =>
      rw [addAll_of_ok ss added]
      exact ih (h.add added)

theorem readable_ofSource (source : String) : (ofSource source).1.Readable := by
  refine Readable.addAll ?_ _
  have none : ∀ (ss : List Statement) (d : Draft),
    (ss.foldl declare d).instructions = d.instructions := by
    intro ss
    induction ss with
    | nil => exact fun _ => rfl
    | cons s ss ih =>
      intro d
      rw [List.foldl_cons, ih, declare]
      split <;> rfl
  intro i mem
  rw [none] at mem
  cases mem

end Draft

namespace ObjectProgram

variable {p : ObjectProgram} {size : Int}

theorem mapM_error {ε α β : Type} {f : α → Except ε β} {xs : List α} {e : ε}
    (h : xs.mapM f = .error e) :
    ∃ x ∈ xs, f x = .error e := by
  induction xs with
  | nil => cases h
  | cons x xs ih =>
    rw [List.mapM_cons] at h
    cases first : f x with
    | error e' =>
      rw [first] at h
      cases h
      exact ⟨x, List.mem_cons_self .., first⟩
    | ok y =>
      cases rest : xs.mapM f with
      | error e' =>
        rw [first, rest] at h
        cases h
        obtain ⟨x', mem, failed⟩ := ih rest
        exact ⟨x', List.mem_cons_of_mem x mem, failed⟩
      | ok ys =>
        rw [first, rest] at h
        cases h

def Readable (p : ObjectProgram) : Prop :=
  ∀ i ∈ p.instructions, ∀ text, .literal text ∈ i.operands → ∃ n, Numeral.read text = .ok n

/-- A program whose immediates can be read fails to link with a report, unless it is too large and
the base that the report would show has too many digits. -/
theorem Readable.link_cases (readable : p.Readable) (size : Int) :
    (∃ words, p.link size = .ok words) ∨ (∃ e, p.link size = .error (.link e)) ∨
      p.link size = .error (.numeral .unwritable) ∧
        Numeral.isWritable (p.variableBase size) = false := by
  cases code : p.instructions.mapM (encode (p.symbols size)) with
  | error e =>
    have failed : p.link size = .error e := by
      rw [link, code]
      rfl
    obtain ⟨i, mem, broken⟩ := mapM_error code
    rw [encode] at broken
    cases resolved : i.operands.mapM (resolve (p.symbols size) i) with
    | ok values =>
      rw [resolved] at broken
      cases broken
    | error e' =>
      rw [resolved] at broken
      cases broken
      obtain ⟨o, operand, unresolved⟩ := mapM_error resolved
      rw [failed]
      cases o with
      | register name =>
        simp only [resolve] at unresolved
        split at unresolved <;> cases unresolved
        exact .inr (.inl ⟨_, rfl⟩)
      | symbol name =>
        simp only [resolve] at unresolved
        split at unresolved <;> cases unresolved
        exact .inr (.inl ⟨_, rfl⟩)
      | literal text =>
        obtain ⟨n, read⟩ := readable i mem text operand
        simp only [resolve, read] at unresolved
        cases unresolved
  | ok codes =>
    rw [link, code]
    simp only [bind, Except.bind, pure, Except.pure, throw, throwThe, MonadExceptOf.throw]
    split
    · exact .inl ⟨_, rfl⟩
    · split
      · exact .inr (.inl ⟨_, rfl⟩)
      · next unwritable => exact .inr (.inr ⟨rfl, by simpa using unwritable⟩)

end ObjectProgram

theorem StopsIn.exists_mem {α β : Type} {passes : α → Prop} {stops : α → β → Prop} {xs : List α}
    {b : β} (h : StopsIn passes stops xs b) : ∃ x ∈ xs, stops x b := by
  induction h with
  | here stop => exact ⟨_, List.mem_cons_self .., stop⟩
  | later _ _ ih =>
    obtain ⟨x, mem, stop⟩ := ih
    exact ⟨x, List.mem_cons_of_mem _ mem, stop⟩

namespace Assembler

variable {a : Assembler} {source : String}

theorem assemble_of_stopped (a : Assembler) {d : Draft} {e : NumeralError}
    (h : Draft.ofSource source = (d, some e)) : (a.assemble source).2 = .error (.numeral e) := by
  simp only [assemble, parse, h]

theorem assemble_of_errors (a : Assembler) {d : Draft} {e : ParseError} {es : List ParseError}
    (h : Draft.ofSource source = (d, none)) (errors : d.errors = e :: es) :
    (a.assemble source).2 = .error (.parse e es) := by
  simp only [assemble, parse, h, Draft.finish, errors]

theorem assemble_of_clean (a : Assembler) {d : Draft} (h : Draft.ofSource source = (d, none))
    (clean : d.errors = []) :
    (∃ words, (a.assemble source).2 = .ok words) ∨ (∃ e, (a.assemble source).2 = .error (.link e)) ∨
      (a.assemble source).2 = .error (.numeral .unwritable) ∧
        Numeral.isWritable (a.memorySize - (Draft.divided source).1.length) = false := by
  have same : (a.assemble source).2 = d.program.link a.memorySize := by
    simp only [assemble, parse, h, Draft.finish, clean, install, link]
    cases d.program.link a.memorySize <;> rfl
  obtain ⟨steps, records⟩ := Draft.records_ofSource h clean
  have names := congrArg List.length records.names
  simp only [List.length_map] at names
  have base : d.program.variableBase a.memorySize = a.memorySize -
    (Draft.divided source).1.length := by
    simp only [ObjectProgram.variableBase, Draft.program, List.length_map, names]
  have readable : d.program.Readable := by
    have all := Draft.readable_ofSource source
    rwa [h] at all
  rw [same, ← base]
  exact readable.link_cases a.memorySize

theorem assemble_tooLong_iff (a : Assembler) (digits : Nat) :
    (a.assemble source).2 = .error (.numeral (.tooLong digits)) ↔
      StopsIn (fun s => ∀ n, ¬ Breaks s.text n) (fun s =>
        Breaks s.text) (Draft.divided source).2 digits := by
  have stopped : (Draft.ofSource source).2 = some (.tooLong digits) ↔
      StopsIn (fun s => ∀ n, ¬ Breaks s.text n) (fun s =>
        Breaks s.text) (Draft.divided source).2 digits := by
    rw [Draft.ofSource_error_iff]
    simp
  rw [← stopped]
  rcases draft : Draft.ofSource source with ⟨d, _ | e⟩
  · refine iff_of_false (fun failed => ?_) (fun other => by cases other)
    cases errors : d.errors with
    | nil =>
      rcases a.assemble_of_clean draft errors with ⟨_, other⟩ | ⟨_, other⟩ | ⟨other, -⟩ <;>
        simp [failed] at other
    | cons e es => simp [a.assemble_of_errors draft errors] at failed
  · rw [a.assemble_of_stopped draft]
    simp

theorem assemble_of_unbroken (a : Assembler)
    (whole : ∀ s ∈ (Draft.divided source).2, ∀ n, ¬ Breaks s.text n) :
    ((∃ s, Bad (Draft.divided source).1 (Draft.divided source).2 s) →
      ∃ e es, (a.assemble source).2 = .error (.parse e es) ∧
        Draft.Reports source (Draft.divided source).1 (Draft.divided source).2 (e :: es)) ∧
    ((∀ s, ¬ Bad (Draft.divided source).1 (Draft.divided source).2 s) →
      (∃ words, (a.assemble source).2 = .ok words) ∨
        (∃ e, (a.assemble source).2 = .error (.link e)) ∨
        (a.assemble source).2 = .error (.numeral .unwritable) ∧
          Numeral.isWritable (a.memorySize - (Draft.divided source).1.length) = false) := by
  rcases draft : Draft.ofSource source with ⟨d, _ | e⟩
  · have clean := (Draft.reflects_ofSource draft).clean_iff
    have reports := Draft.reports_ofSource draft
    refine ⟨?_, fun good => a.assemble_of_clean draft (clean.mpr good)⟩
    rintro ⟨s, bad⟩
    cases errors : d.errors with
    | nil => exact absurd bad (clean.mp errors s)
    | cons e es => exact ⟨e, es, a.assemble_of_errors draft errors, errors ▸ reports⟩
  · have stopped : (Draft.ofSource source).2 = some e := by rw [draft]
    obtain ⟨digits, stops, -⟩ := Draft.ofSource_error_iff.mp stopped
    obtain ⟨s, mem, breaks⟩ := stops.exists_mem
    exact absurd breaks (whole s mem digits)

/-- An assembly that fails does so with a report: a source text of which all operands are legible
has all its bad statements reported, and if there are none, an operand without a number or a program
that is too large. Only the first numeral of too many digits escapes the report, and a base of the
variables that cannot be written in it. -/
theorem assembly_fails_with_report (a : Assembler) (source : String) :
    ∃ declarations body, Statements source (declarations ++ body) ∧ Divides declarations body ∧
      (∀ digits, (a.assemble source).2 = .error (.numeral (.tooLong digits)) ↔
        StopsIn (fun s => ∀ n, ¬ Breaks s.text n) (fun s => Breaks s.text) body digits) ∧
      ((∀ s ∈ body, ∀ n, ¬ Breaks s.text n) →
        ((∃ s, Bad declarations body s) → ∃ e es, (a.assemble source).2 = .error (.parse e es) ∧
          Draft.Reports source declarations body (e :: es)) ∧
        ((∀ s, ¬ Bad declarations body s) →
          (∃ words, (a.assemble source).2 = .ok words) ∨
            (∃ e, (a.assemble source).2 = .error (.link e)) ∨
            (a.assemble source).2 = .error (.numeral .unwritable) ∧
              Numeral.isWritable (a.memorySize - declarations.length) = false)) := by
  refine ⟨(Draft.divided source).1, (Draft.divided source).2, ?_, Draft.divides source,
    fun digits => a.assemble_tooLong_iff digits, fun whole => a.assemble_of_unbroken whole⟩
  rw [Draft.divided_append]
  exact Statement.statements_ofSource source

/-- A bad statement, and behind it a move of that immediate. -/
def movesNumeral (digits : List Char) : String :=
  "bad bad\nmove " ++ String.ofList digits ++ " %reg0"

section

variable {digits : List Char}

def moveLine (digits : List Char) : List Char := "move ".toList ++ (digits ++ " %reg0".toList)

theorem moveLine_avoids (numeral : Digits digits) {x : Char} (other : x.isDigit = false)
    (apart : x ∉ "move %reg0".toList) : ∀ c ∈ moveLine digits, (c == x) = false := by
  intro c hc
  refine beq_false_of_ne ?_
  rintro rfl
  rcases List.mem_append.mp hc with hc | hc
  · exact apart (List.mem_append_left "%reg0".toList hc)
  · rcases List.mem_append.mp hc with hc | hc
    · rw [numeral.2 c hc] at other
      cases other
    · exact apart (List.mem_append_right "move".toList hc)

theorem trim_moveLine (digits : List Char) : trim (moveLine digits) = moveLine digits := by
  simp [trim, trimOf, trimEndOf, moveLine, isBlank]

theorem statements_movesNumeral (numeral : Digits digits) :
    Statement.ofSource (movesNumeral digits) =
      [⟨1, "bad bad", "bad bad"⟩,
        ⟨2, String.ofList (moveLine digits), String.ofList (moveLine digits)⟩] := by
  have lines : splitLines (movesNumeral digits).toList = ["bad bad".toList, moveLine digits] := by
    have spelled : (movesNumeral digits).toList = "bad bad".toList ++ '\n' :: moveLine digits := by
      simp [movesNumeral, moveLine]
    rw [spelled, splitLines, splitAtEach_cut (none_of_any (by decide)) rfl,
      splitAtEach_of_none (moveLine_avoids numeral rfl (by decide))]
  have stripped : Statement.strip (moveLine digits) = moveLine digits := by
    rw [Statement.strip, List.takeWhile_eq_self_iff.mpr, trim_moveLine]
    intro c hc
    rw [bne, moveLine_avoids numeral rfl (by decide) c hc]
    rfl
  have raw : trimEndOf (· == '\r') (moveLine digits) = moveLine digits := by
    simp [trimEndOf, moveLine]
  have full : (moveLine digits).isEmpty = false := rfl
  have first : (Statement.strip "bad bad".toList).isEmpty = false := by decide
  have one : Statement.ofLine 1 "bad bad".toList = ⟨1, "bad bad", "bad bad"⟩ := by decide
  have two : Statement.ofLine (1 + 1) (moveLine digits) =
      ⟨2, String.ofList (moveLine digits), String.ofList (moveLine digits)⟩ := by
    rw [Statement.ofLine, raw, stripped]
  simp only [Statement.ofSource, lines, Statement.ofLines, first, stripped, full, one, two,
    Bool.false_eq_true, if_false]

theorem wordsOf_moveLine (numeral : Digits digits) :
    Statement.wordsOf (String.ofList (moveLine digits)) =
      ["move", String.ofList digits, "%reg0"] := by
  have cut : moveLine digits = "move".toList ++ ' ' :: (digits ++ ' ' :: "%reg0".toList) := rfl
  have dense : ∀ c ∈ digits, isBlank c = false := fun c hc =>
    isBlank_of_isPlain (isPlain_of_isDigit (numeral.2 c hc))
  have full : digits.isEmpty = false := by simpa using numeral.1
  rw [Statement.wordsOf, String.toList_ofList, words, cut,
    splitAtEach_cut (none_of_any (by decide)) rfl, splitAtEach_cut dense rfl,
      splitAtEach_of_none (none_of_any (by decide))]
  simp [full]

theorem breaks_moveLine (numeral : Digits digits) (long : Numeral.digitLimit < digits.length) :
    Breaks (String.ofList (moveLine digits)) digits.length := by
  constructor
  · rintro name ⟨-, gap, -, spelled⟩
    have last := congrArg List.getLast? spelled
    simp [moveLine, List.getLast?_cons, List.getLast?_append] at last
  · refine ⟨"move", _, wordsOf_moveLine numeral, ⟨.moveImmReg, by decide⟩, .here ⟨?_, ?_, long⟩⟩
    · exact ⟨_, by rw [String.toList_ofList]; exact .plain numeral⟩
    · rw [String.toList_ofList, numeral.digitCount]

theorem unbroken_badBad (n : Nat) : ¬ Breaks "bad bad" n := by
  rintro ⟨-, first, operands, split, mnemonic, -⟩
  have words : Statement.wordsOf "bad bad" = ["bad", "bad"] := by decide
  rw [words] at split
  cases split
  exact absurd (spellsMnemonic_iff.mpr mnemonic) (by decide)

theorem assemble_movesNumeral (a : Assembler) (numeral : Digits digits)
    (long : Numeral.digitLimit < digits.length) :
    (a.assemble (movesNumeral digits)).2 = .error (.numeral (.tooLong digits.length)) := by
  have stopped : (Draft.ofSource (movesNumeral digits)).2 = some (.tooLong digits.length) := by
    have other : Statement.declaresVariable "bad bad" = false := by decide
    rw [Draft.ofSource, statements_movesNumeral numeral]
    simp only [Draft.ofStatements, List.takeWhile_cons, List.dropWhile_cons, other,
      Bool.false_eq_true, if_false]
    refine (Draft.addAll_error_iff ?_ _).mpr
      ⟨digits.length, .later unbroken_badBad (.here (breaks_moveLine numeral long)), rfl⟩
    intro s mem
    rcases List.mem_cons.mp mem with rfl | mem
    · exact fun last => absurd last (by decide)
    · cases List.mem_singleton.mp mem
      exact trim_moveLine digits ▸ unended_trim _
  rw [a.assemble_of_stopped (Prod.ext rfl stopped)]

end

/-- A numeral of too many digits is not reported, and neither is the bad statement before it. -/
theorem long_numeral_escapes :
    ¬ ((∃ words, ((ofSize 256).assemble (movesNumeral (List.replicate 4301 '1'))).2 = .ok words) ∨
      (∃ e es, ((ofSize 256).assemble (movesNumeral (List.replicate 4301 '1'))).2 =
        .error (.parse e es)) ∨
      ∃ e, ((ofSize 256).assemble (movesNumeral (List.replicate 4301 '1'))).2 =
        .error (.link e)) := by
  have numeral : Digits (List.replicate 4301 '1') :=
    ⟨List.cons_ne_nil _ _, fun c hc => List.eq_of_mem_replicate hc ▸ rfl⟩
  rw [assemble_movesNumeral (ofSize 256) numeral (by rw [List.length_replicate]; decide)]
  rintro (⟨_, ⟨⟩⟩ | ⟨_, _, ⟨⟩⟩ | ⟨_, ⟨⟩⟩)

end Assembler

end BusMachine
