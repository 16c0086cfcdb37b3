import BusMachine.Proofs.Assembly.Layout
import BusMachine.Proofs.Text.Blanks

/-!
Source texts put together. A text without declarations may follow any other text: its program then
follows the other program, further down and behind the words of the other. Only a label can be
refused, if the other text has its name.
-/
namespace BusMachine

open Text Grammar

namespace Statement

/-- The statement that many lines further down. -/
def moved (lines : Nat) (s : Statement) : Statement := { s with line := s.line + lines }

theorem ofLines_append (n : Nat) (ls ls' : List (List Char)) :
    ofLines n (ls ++ ls') = ofLines n ls ++ ofLines (n + ls.length) ls' := by
  induction ls generalizing n with
  | nil => rfl
  | cons l ls ih =>
    rw [List.cons_append, ofLines, ofLines, ih, List.length_cons, Nat.add_assoc, Nat.add_comm 1]
    split <;> rfl

theorem ofLines_moved (n lines : Nat) (ls : List (List Char)) :
    ofLines (n + lines) ls = (ofLines n ls).map (moved lines) := by
  induction ls generalizing n with
  | nil => rfl
  | cons l ls ih =>
    rw [ofLines, ofLines, Nat.add_right_comm, ih]
    split <;> rfl

/-- The lines of a text, of which the last need not be ended. -/
def lineCount (source : String) : Nat := source.toList.count '\n' + 1

theorem ofSource_joined (front back : String) :
    ofSource (front ++ "\n" ++ back) =
      ofSource front ++ (ofSource back).map (moved (lineCount front)) := by
  have chars : (front ++ "\n" ++ back).toList = front.toList ++ '\n' :: back.toList := by simp
  have lines : (splitLines front.toList).length = lineCount front := length_splitAtEach _ _
  rw [ofSource, chars, splitLines, splitAtEach_append (by rfl), ofLines_append, ← splitLines,
    ← splitLines, lines, ofLines_moved]
  rfl

end Statement

/-- The instruction that many lines further down, behind that many more words. -/
def Instruction.moved (lines words : Nat) (i : Instruction) : Instruction :=
  { i with line := i.line + lines, offset := i.offset + words }

namespace ObjectProgram

/-- A variable or a label of the program has that name. -/
def Knows (p : ObjectProgram) (name : String) : Prop :=
  name ∈ p.variableNames ∨ name ∈ p.labels.map Prod.fst

instance (p : ObjectProgram) (name : String) : Decidable (p.Knows name) :=
  inferInstanceAs (Decidable (name ∈ p.variableNames ∨ name ∈ p.labels.map Prod.fst))

/-- A program with the labels and instructions of another that stands that many lines
further down. -/
def followedBy (p : ObjectProgram) (lines : Nat) (q : ObjectProgram) : ObjectProgram where
  variableNames := p.variableNames
  labels := p.labels ++ q.labels.map (fun e => (e.1, e.2 + (p.length : Int)))
  instructions := p.instructions ++ q.instructions.map (Instruction.moved lines p.length)

/-- What is reported of a label further down whose name the program knows. -/
inductive Refuses (p : ObjectProgram) (lines : Nat) (s : Statement) : ParseError → Prop where
  | declared {name : String} : Label s.text name → name ∈ p.variableNames →
      Refuses p lines s ⟨.labelIsVariable name, s.line + lines, trimmed s.raw⟩
  | labelled {name : String} : Label s.text name → name ∉ p.variableNames →
      name ∈ p.labels.map Prod.fst →
      Refuses p lines s ⟨.duplicateLabel name, s.line + lines, trimmed s.raw⟩

theorem length_eq (p : ObjectProgram) : p.length = wordCount p.instructions := by
  rw [length, wordCount, List.sum_eq_foldr, List.foldr_map]

end ObjectProgram

namespace Draft

variable {base d d' next : Draft} {lines : Nat} {done refused : List Statement} {s : Statement}

/-- Two drafts of the same statements. One starts from nothing. The other goes on from a draft of
the lines before and refuses the labels whose names are known there. -/
structure Continues (base : Draft) (lines : Nat) (done refused : List Statement)
    (d d' : Draft) : Prop where
  declarations : d'.declarations = base.declarations
  labels : d'.labels = base.labels ++
    (d.labels.filter (fun e => ¬ base.program.Knows e.1)).map (fun e =>
      (e.1, e.2 + (base.length : Int)))
  instructions : d'.instructions =
    base.instructions ++ d.instructions.map (Instruction.moved lines base.length)
  length : d'.length = base.length + d.length
  sublist : refused.Sublist done
  exact : ∀ s, s ∈ refused ↔ s ∈ done ∧ ∃ name, Label s.text name ∧ base.program.Knows name
  errors : List.Forall₂ (base.program.Refuses lines) refused d'.errors

theorem continues_self (base : Draft) (lines : Nat) (clean : base.errors = []) :
    Continues base lines [] [] {} base where
  declarations := rfl
  labels := (List.append_nil _).symm
  instructions := (List.append_nil _).symm
  length := rfl
  sublist := .slnil
  exact s := by simp
  errors := clean ▸ .nil

theorem Continues.isDeclared (h : Continues base lines done refused d d') (name : String) :
    d'.isDeclared name = base.isDeclared name := by
  rw [Draft.isDeclared, h.declarations, Draft.isDeclared]

theorem Continues.isLabel (h : Continues base lines done refused d d') {name : String}
    (new : d.isLabel name = false) : d'.isLabel name = base.isLabel name := by
  have unknown : ∀ e ∈ d.labels, e.1 ≠ name := by simpa [Draft.isLabel] using new
  have others : (d.labels.filter (fun e => ¬ base.program.Knows e.1)).any (·.1 == name) =
    false := by
    rw [List.any_eq_false]
    intro e he
    simpa using unknown e (List.mem_filter.mp he).1
  rw [Draft.isLabel, h.labels, List.any_append, List.any_map, Draft.isLabel]
  exact (congrArg _ others).trans (Bool.or_false _)

theorem Continues.refuse (h : Continues base lines done refused d d') {name : String}
    (label : Label s.text name) (known : base.program.Knows name) {what : Defect}
    (reported : base.program.Refuses lines s ⟨what, s.line + lines, trimmed s.raw⟩) :
    Continues base lines (done ++ [s]) (refused ++ [s])
      { d with labels := d.labels ++ [(name, (d.length : Int))] } (d'.note (s.moved lines) what)
        where
  declarations := h.declarations
  labels := by
    have gone : [(name, (d.length : Int))].filter (fun e => ¬ base.program.Knows e.1) = [] := by
      simp [known]
    rw [List.filter_append, gone, List.append_nil]
    exact h.labels
  instructions := h.instructions
  length := h.length
  sublist := h.sublist.append (.refl _)
  exact t := by
    rw [List.mem_append, h.exact, List.mem_append, or_and_right, List.mem_singleton]
    refine or_congr_right ⟨?_, And.left⟩
    rintro rfl
    exact ⟨rfl, name, label, known⟩
  errors := List.rel_append h.errors (.cons reported .nil)

theorem Continues.keep (h : Continues base lines done refused d d') {name : String}
    (label : Label s.text name) (unknown : ¬ base.program.Knows name) :
    Continues base lines (done ++ [s]) refused
      { d with labels := d.labels ++ [(name, (d.length : Int))] }
      { d' with labels := d'.labels ++ [(name, (d'.length : Int))] } where
  declarations := h.declarations
  labels := by
    have kept : [(name, (d.length : Int))].filter (fun e => ¬ base.program.Knows e.1) =
      [(name, (d.length : Int))] := by
      simp [unknown]
    rw [h.labels, List.filter_append, kept, List.map_append, List.append_assoc, h.length,
      Int.natCast_add, Int.add_comm]
    rfl
  instructions := h.instructions
  length := h.length
  sublist := h.sublist.trans (List.sublist_append_left _ _)
  exact t := by
    rw [h.exact, List.mem_append, or_and_right, List.mem_singleton]
    refine (or_iff_left ?_).symm
    rintro ⟨rfl, other, label', known⟩
    exact unknown (label.unique label' ▸ known)
  errors := h.errors

theorem Continues.addInstruction (h : Continues base lines done refused d d')
    (unlabelled : ∀ name, ¬ Label s.text name) (i : Instruction) (offset : i.offset = d.length) :
    Continues base lines (done ++ [s]) refused
      { d with instructions := d.instructions ++ [i], length := d.length + i.size }
      { d' with
        instructions := d'.instructions ++ [{ i with line := i.line + lines, offset := d'.length }]
        length := d'.length + i.size } where
  declarations := h.declarations
  labels := h.labels
  instructions := by
    have behind : (d'.length : Int) = i.offset + base.length := by
      rw [offset, h.length]
      omega
    have moved : ({ i with line := i.line + lines, offset := d'.length } : Instruction) =
      i.moved lines base.length :=
      congrArg (fun offset =>
        ({ i with line := i.line + lines, offset := offset } : Instruction)) behind
    rw [h.instructions, moved, List.map_append, List.append_assoc]
    rfl
  length := by
    simp only [h.length]
    omega
  sublist := h.sublist.trans (List.sublist_append_left _ _)
  exact t := by
    rw [h.exact, List.mem_append, or_and_right, List.mem_singleton]
    refine (or_iff_left ?_).symm
    rintro ⟨rfl, name, label, -⟩
    exact unlabelled name label
  errors := h.errors

theorem Continues.addLabel (h : Continues base lines done refused d d') {name : String}
    (label : Label s.text name) (clean : (d.addLabel s name).errors = []) :
    ∃ refused', Continues base lines (done ++ [s]) refused' (d.addLabel s name)
      (d'.addLabel (s.moved lines) name) := by
  rw [Draft.addLabel] at clean ⊢
  split at clean
  · exact absurd clean (note_errors_ne_nil _)
  split at clean
  · exact absurd clean (note_errors_ne_nil _)
  next undeclared new =>
  rw [if_neg undeclared, if_neg new, Draft.addLabel, h.isDeclared,
    h.isLabel (Bool.eq_false_iff.mpr new)]
  split
  · next declared =>
    have known : name ∈ base.program.variableNames := (base.isDeclared_iff name).mp declared
    exact ⟨_, h.refuse label (.inl known) (.declared label known)⟩
  next undeclared =>
  have fresh : name ∉ base.program.variableNames :=
    fun mem => undeclared ((base.isDeclared_iff name).mpr mem)
  split
  · next labelled =>
    have known := (base.isLabel_iff name).mp labelled
    exact ⟨_, h.refuse label (.inr known) (.labelled label fresh known)⟩
  · next unlabelled =>
    refine ⟨_, h.keep label ?_⟩
    rintro (mem | mem)
    · exact fresh mem
    · exact unlabelled ((base.isLabel_iff name).mpr mem)

/-- A statement that finds no defect in the one draft is refused by the other or does the
same to it. -/
theorem Continues.add (h : Continues base lines done refused d d') (unended : Unended s.text)
    (added : d.add s = .ok next) (clean : next.errors = []) :
    ∃ refused' next', d'.add (s.moved lines) = .ok next' ∧
      Continues base lines (done ++ [s]) refused' next next' := by
  have text : (s.moved lines).text = s.text := rfl
  rw [Draft.add] at added
  rw [Draft.add, text]
  split at added
  · next name found =>
    cases added
    obtain ⟨refused', continues⟩ := h.addLabel ((label?_eq_some_iff unended).mp found) clean
    exact ⟨refused', _, rfl, continues⟩
  · next found =>
    rw [Draft.addInstruction] at added
    rw [Draft.addInstruction, text]
    split at added
    · next c operands read =>
      cases added
      exact ⟨_, _, rfl, h.addInstruction ((label?_eq_none_iff unended).mp found) _ rfl⟩
    · cases added
      exact absurd clean (note_errors_ne_nil _)
    · cases added

theorem addAll_append {d d' : Draft} {ss : List Statement} (rest : List Statement)
    (h : d.addAll ss = (d', none)) :
    d.addAll (ss ++ rest) = d'.addAll rest := by
  induction ss generalizing d with
  | nil =>
    cases h
    rfl
  | cons s ss ih =>
    rw [addAll] at h
    split at h
    · next next added =>
      rw [List.cons_append, addAll_of_ok _ added]
      exact ih h
    · cases h

theorem clean_of_addAll {ss : List Statement} (unended : ∀ s ∈ ss, Unended s.text)
    (h : d.addAll ss = (d', none)) (clean : d'.errors = []) : d.errors = [] :=
  @addAll_induction (fun _ later => later.errors = [] → d.errors = [])
    (fun _ _ _ _ before step clean => before (step.clean clean)) ss unended [] d d' id h clean

theorem Continues.addAll {ss : List Statement} (h : Continues base lines done refused d d')
    (unended : ∀ s ∈ ss, Unended s.text) (run : d.addAll ss = (next, none))
    (clean : next.errors = []) :
    ∃ refused' next', d'.addAll (ss.map (Statement.moved lines)) = (next', none) ∧
      Continues base lines (done ++ ss) refused' next next' := by
  induction ss generalizing done refused d d' with
  | nil =>
    cases run
    exact ⟨refused, d', rfl, (List.append_nil done).symm ▸ h⟩
  | cons s ss ih =>
    rw [Draft.addAll] at run
    split at run
    · next later added =>
      have others : ∀ t ∈ ss, Unended t.text := fun t ht => unended t (List.mem_cons_of_mem _ ht)
      obtain ⟨refused', later', added', continues⟩ :=
        h.add (unended s (List.mem_cons_self ..)) added (clean_of_addAll others run clean)
      obtain ⟨refused'', next', run', continues⟩ := ih continues others run
      rw [List.append_assoc] at continues
      exact ⟨refused'', next', (addAll_of_ok _ added').trans run', continues⟩
    · cases run

theorem divide_append {p : Statement → Bool} (xs : List Statement) {ys : List Statement}
    (none : ys.takeWhile p = []) :
    (xs ++ ys).takeWhile p = xs.takeWhile p ∧ (xs ++ ys).dropWhile p = xs.dropWhile p ++ ys := by
  have taken : (xs ++ ys).takeWhile p = xs.takeWhile p := by
    rw [List.takeWhile_append]
    split
    · next whole => rw [none, List.append_nil, (List.takeWhile_prefix p).eq_of_length whole]
    · rfl
  have whole : xs.takeWhile p ++ (xs ++ ys).dropWhile p =
      xs.takeWhile p ++ (xs.dropWhile p ++ ys) := by
    rw [← List.append_assoc, List.takeWhile_append_dropWhile, ← taken,
      List.takeWhile_append_dropWhile]
  exact ⟨taken, List.append_cancel_left whole⟩

/-- What divides the first text divides both together. -/
theorem ofSource_joined {front back : String} (finished : ofSource front = (d, none))
    (undeclared : (divided back).1 = []) :
    ofSource (front ++ "\n" ++ back) =
      d.addAll ((Statement.ofSource back).map (Statement.moved (Statement.lineCount front))) := by
  have none :
    ((Statement.ofSource back).map (Statement.moved (Statement.lineCount front))).takeWhile
      (fun s => Statement.declaresVariable s.text) = [] := by
    rw [List.takeWhile_map]
    exact congrArg _ undeclared
  obtain ⟨taken, left⟩ := divide_append (Statement.ofSource front) none
  simp only [ofSource, ofStatements] at finished ⊢
  rw [Statement.ofSource_joined, taken, left]
  exact addAll_append _ finished

variable {front back : String}

theorem divided_of_undeclared (finished : ofSource back = (d, none)) (clean : d.errors = [])
    (undeclared : d.program.variableNames = []) : divided back = ([], Statement.ofSource back) := by
  obtain ⟨steps, records⟩ := records_ofSource finished clean
  have names : (divided back).1.map Statement.text = [] := records.names.symm.trans undeclared
  have declarations : (divided back).1 = [] := List.map_eq_nil_iff.mp names
  have parts := divided_append back
  rw [declarations, List.nil_append] at parts
  exact Prod.ext declarations parts

theorem continues_joined (finished : ofSource front = (base, none)) (clean : base.errors = [])
    (finished' : ofSource back = (d, none)) (clean' : d.errors = [])
    (undeclared : d.program.variableNames = []) :
    ∃ refused d', ofSource (front ++ "\n" ++ back) = (d', none) ∧
      Continues base (Statement.lineCount front) (Statement.ofSource back) refused d d' := by
  have whole := divided_of_undeclared finished' clean' undeclared
  have run : ((divided back).1.foldl declare {}).addAll (divided back).2 = (d, none) := finished'
  rw [whole] at run
  rw [ofSource_joined finished (congrArg Prod.fst whole)]
  exact (continues_self base _ clean).addAll (fun _ => Statement.unended_ofSource) run clean'

theorem mem_labels_iff (finished : ofSource back = (d, none)) (clean : d.errors = [])
    (undeclared : d.program.variableNames = []) (name : String) :
    name ∈ d.program.labels.map Prod.fst ↔ ∃ s ∈ Statement.ofSource back, Label s.text name := by
  have new : d.isDeclared name = false := by
    rw [Bool.eq_false_iff, ne_eq, isDeclared_iff, undeclared]
    exact List.not_mem_nil
  have labelled := (reflects_ofSource finished).labelled name new
  rwa [isLabel_iff, divided_of_undeclared finished clean undeclared] at labelled

theorem Continues.exists_refused (h : Continues base lines (Statement.ofSource back) refused d d')
    (finished : ofSource back = (d, none)) (clean : d.errors = [])
    (undeclared : d.program.variableNames = []) :
    (∃ s, s ∈ refused) ↔ ∃ name ∈ d.program.labels.map Prod.fst, base.program.Knows name := by
  constructor
  · rintro ⟨s, mem⟩
    obtain ⟨mem, name, label, known⟩ := (h.exact s).mp mem
    exact ⟨name, (mem_labels_iff finished clean undeclared name).mpr ⟨s, mem, label⟩, known⟩
  · rintro ⟨name, mem, known⟩
    obtain ⟨s, mem, label⟩ := (mem_labels_iff finished clean undeclared name).mp mem
    exact ⟨s, (h.exact s).mpr ⟨mem, name, label, known⟩⟩

theorem Continues.program_eq (h : Continues base lines done refused d d')
    (length : base.length = base.program.length)
    (unknown : ∀ name ∈ d.program.labels.map Prod.fst, ¬ base.program.Knows name) :
    d'.program = base.program.followedBy lines d.program := by
  have kept : d.labels.filter (fun e => ¬ base.program.Knows e.1) = d.labels := by
    rw [List.filter_eq_self]
    intro e he
    exact decide_eq_true (unknown e.1 (List.mem_map_of_mem he))
  rw [program, h.declarations, h.labels, kept, h.instructions, length]
  rfl

end Draft

namespace Assembler

/-- A text without declarations may follow any text. Its program then follows the other program,
unless that knows one of its labels; then exactly the labels that it knows are reported. -/
theorem joined_texts_have_joined_programs (a : Assembler) {front back : String}
    {p q : ObjectProgram} (first : (a.parse front).2 = .ok p) (second : (a.parse back).2 = .ok q)
    (undeclared : q.variableNames = []) :
    ((∃ r, (a.parse (front ++ "\n" ++ back)).2 = .ok r) ↔
        ∀ name ∈ q.labels.map Prod.fst, ¬ p.Knows name) ∧
      (∀ r, (a.parse (front ++ "\n" ++ back)).2 = .ok r →
        r = p.followedBy (Statement.lineCount front) q) ∧
      ((∃ name ∈ q.labels.map Prod.fst, p.Knows name) →
        ∃ refused e es, (a.parse (front ++ "\n" ++ back)).2 = .error (.parse e es) ∧
          refused.Sublist (Statement.ofSource back) ∧
          (∀ s, s ∈ refused ↔
            s ∈ Statement.ofSource back ∧ ∃ name, Label s.text name ∧ p.Knows name) ∧
          List.Forall₂ (p.Refuses (Statement.lineCount front)) refused (e :: es)) := by
  obtain ⟨base, finished, clean, rfl⟩ := parse_ok first
  obtain ⟨d, finished', clean', rfl⟩ := parse_ok second
  obtain ⟨refused, d', joined, continues⟩ :=
    Draft.continues_joined finished clean finished' clean' undeclared
  have refusedIff := continues.exists_refused finished' clean' undeclared
  obtain ⟨steps, records⟩ := Draft.records_ofSource finished clean
  have length : base.length = base.program.length :=
    records.length.trans base.program.length_eq.symm
  have reports := continues.errors
  rw [parse_of_ofSource a joined, Draft.finish]
  cases errors : d'.errors with
  | nil =>
    rw [errors] at reports
    cases reports
    have unknown : ∀ name ∈ d.program.labels.map Prod.fst, ¬ base.program.Knows name := by
      intro name mem known
      obtain ⟨s, mem⟩ := refusedIff.mpr ⟨name, mem, known⟩
      cases mem
    refine ⟨⟨fun _ => unknown, fun _ => ⟨_, rfl⟩⟩, ?_, ?_⟩
    · intro r ok
      cases ok
      exact continues.program_eq length unknown
    · rintro ⟨name, mem, known⟩
      exact absurd known (unknown name mem)
  | cons e es =>
    rw [errors] at reports
    refine ⟨⟨?_, ?_⟩, ?_, fun _ =>
      ⟨refused, e, es, rfl, continues.sublist, continues.exact, reports⟩⟩
    · rintro ⟨r, ok⟩
      cases ok
    · intro unknown
      cases reports with
      | cons =>
        obtain ⟨name, mem, known⟩ := refusedIff.mp ⟨_, List.mem_cons_self ..⟩
        exact absurd known (unknown name mem)
    · intro r ok
      cases ok

def countsUp : String := "n\nloop:\ninc n ; up"

def countsUpProgram : ObjectProgram :=
  { variableNames := ["n"]
    labels := [("loop", 0)]
    instructions := [⟨.incMem, [.symbol "n"], 3, "inc n ; up", 0⟩] }

def repeats : String := "; for ever\nagain:\njmp loop"

def repeatsNames : String := "again:\n\njmp again\nloop : ; once more\nn:"

/-- One text may follow the first text, and of the labels of another two are refused. -/
theorem countsUp_joined :
    ((ofSize 64).parse (countsUp ++ "\n" ++ repeats)).2 =
        .ok (countsUpProgram.followedBy 3 ⟨[], [("again", 0)],
          [⟨.jmp, [.symbol "loop"], 3, "jmp loop", 0⟩]⟩) ∧
      ((ofSize 64).parse (countsUp ++ "\n" ++ repeatsNames)).2 = .error
        (.parse ⟨.duplicateLabel "loop", 7, "loop : ; once more"⟩
          [⟨.labelIsVariable "n", 8, "n:"⟩]) ∧
      ∃ refused, (∀ s, s ∈ refused ↔
          s ∈ Statement.ofSource repeatsNames ∧
            ∃ name, Label s.text name ∧ countsUpProgram.Knows name) ∧
        List.Forall₂ (countsUpProgram.Refuses 3) refused
          [⟨.duplicateLabel "loop", 7, "loop : ; once more"⟩, ⟨.labelIsVariable "n", 8, "n:"⟩] := by
  have first : ((ofSize 64).parse countsUp).2 = .ok countsUpProgram := by decide +kernel
  have second : ((ofSize 64).parse repeats).2 =
      .ok ⟨[], [("again", 0)], [⟨.jmp, [.symbol "loop"], 3, "jmp loop", 0⟩]⟩ := by decide +kernel
  have third : ((ofSize 64).parse repeatsNames).2 =
      .ok ⟨[], [("again", 0), ("loop", 2), ("n", 2)],
        [⟨.jmp, [.symbol "again"], 3, "jmp again", 0⟩]⟩ := by
    decide +kernel
  have refusal : ((ofSize 64).parse (countsUp ++ "\n" ++ repeatsNames)).2 = .error
      (.parse ⟨.duplicateLabel "loop", 7, "loop : ; once more"⟩
        [⟨.labelIsVariable "n", 8, "n:"⟩]) := by
    decide +kernel
  obtain ⟨parses, joined, -⟩ := joined_texts_have_joined_programs (ofSize 64) first second rfl
  obtain ⟨-, -, clash⟩ := joined_texts_have_joined_programs (ofSize 64) first third rfl
  obtain ⟨r, ok⟩ := parses.mpr (by decide)
  obtain ⟨refused, e, es, error, -, exact, reports⟩ := clash (by decide)
  cases refusal.symm.trans error
  exact ⟨joined r ok ▸ ok, refusal, refused, exact, reports⟩

end Assembler

end BusMachine
