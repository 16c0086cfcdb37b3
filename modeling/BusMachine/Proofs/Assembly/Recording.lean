import BusMachine.Proofs.Assembly.Linking
import BusMachine.Proofs.Assembly.Parsing

/-!
What a draft without defects records: the declared names, the instructions in the order of their
statements, each at the number of words before it, and the labels with the instructions that they
stand between.
-/
namespace BusMachine

open Grammar

/-- The instruction of a statement. -/
def Statement.Yields (s : Statement) (i : Instruction) : Prop :=
  i.line = s.line ∧ ReadsAs s.text i.opcode i.operands

/-- The label stands behind the first instructions and before the others, at the words that
the first take. -/
def Statement.Marks (l : Statement) (offset : Int) (is : List Instruction) : Prop :=
  ∃ before after, is = before ++ after ∧ offset = wordCount before ∧
    (∀ i ∈ before, i.line < l.line) ∧ ∀ i ∈ after, l.line < i.line

/-- What a draft without defects records of declarations and a body in which `steps` are the
statements that are no labels. -/
structure Draft.Records (declarations body steps : List Statement) (d : Draft) : Prop where
  names : d.declarations.map Prod.fst = declarations.map Statement.text
  sublist : steps.Sublist body
  unlabelled : ∀ s, s ∈ steps ↔ s ∈ body ∧ ∀ name, ¬ Label s.text name
  instructions : List.Forall₂ Statement.Yields steps d.instructions
  length : d.length = wordCount d.instructions
  offsets : ∀ (before : List Instruction) (i : Instruction) (after : List Instruction),
    d.instructions = before ++ i :: after → i.offset = (wordCount before : Int)
  labels : ∀ name offset, (name, offset) ∈ d.labels →
    ∃ l ∈ body, Label l.text name ∧ l.Marks offset d.instructions

namespace Draft

variable {declarations body steps : List Statement} {d d' : Draft} {s : Statement}

theorem records_empty : Records [] [] [] {} where
  names := rfl
  sublist := .slnil
  unlabelled s := by simp
  instructions := .nil
  length := rfl
  offsets before i after split := absurd split (by simp)
  labels name offset mem := by cases mem

theorem note_errors_ne_nil (what : Defect) : (d.note s what).errors ≠ [] := by
  simp [note]

theorem Records.declare (h : Records declarations [] [] d) (step : d.Declares s d')
    (clean : d'.errors = []) : Records (declarations ++ [s]) [] [] d' := by
  cases step with
  | again _ => exact absurd clean (note_errors_ne_nil _)
  | fresh _ => exact { h with names := by simp [h.names] }

theorem Records.line_lt (h : Records declarations body steps d) {n : Nat}
    (earlier : ∀ t ∈ body, t.line < n) : ∀ i ∈ d.instructions, i.line < (n : Int) := by
  intro i hi
  obtain ⟨k, bound, rfl⟩ := List.getElem_of_mem hi
  have bound' : k < steps.length := h.instructions.length_eq ▸ bound
  have yields := h.instructions.get bound' bound
  have mem : steps[k] ∈ body := h.sublist.subset (List.getElem_mem bound')
  have lt := earlier _ mem
  have line : d.instructions[k].line = steps[k].line := yields.1
  omega

theorem Records.addLabel (h : Records declarations body steps d) {name : String}
    (label : Label s.text name) (earlier : ∀ t ∈ body, t.line < s.line) :
    Records declarations (body ++ [s]) steps
      { d with labels := d.labels ++ [(name, (d.length : Int))] } where
  names := h.names
  sublist := h.sublist.trans (List.sublist_append_left _ _)
  unlabelled t := by
    rw [h.unlabelled, List.mem_append, or_and_right, List.mem_singleton]
    refine (or_iff_left ?_).symm
    rintro ⟨rfl, none⟩
    exact none name label
  instructions := h.instructions
  length := h.length
  offsets := h.offsets
  labels other offset mem := by
    rcases List.mem_append.mp mem with mem | mem
    · obtain ⟨l, hl, labelled, marks⟩ := h.labels other offset mem
      exact ⟨l, List.mem_append_left _ hl, labelled, marks⟩
    · cases List.mem_singleton.mp mem
      exact ⟨s, List.mem_append_right _ (List.mem_singleton.mpr rfl), label, d.instructions, [],
        (List.append_nil _).symm, congrArg Nat.cast h.length, h.line_lt earlier, by simp⟩

theorem Records.addInstruction (h : Records declarations body steps d)
    (unlabelled : ∀ name, ¬ Label s.text name) (earlier : ∀ t ∈ body, t.line < s.line)
    {i : Instruction} (yields : s.Yields i) (offset : i.offset = d.length) :
    Records declarations (body ++ [s]) (steps ++ [s])
      { d with instructions := d.instructions ++ [i], length := d.length + i.size } where
  names := h.names
  sublist := h.sublist.append (.refl _)
  unlabelled t := by
    rw [List.mem_append, h.unlabelled, List.mem_append, or_and_right, List.mem_singleton]
    refine or_congr_right ⟨fun eq => ⟨eq, eq ▸ unlabelled⟩, And.left⟩
  instructions := List.rel_append h.instructions (.cons yields .nil)
  length := by simp [h.length]
  offsets before j after split := by
    rcases snoc_eq_append_cons.mp split with ⟨after', -, split⟩ | ⟨-, rfl, rfl⟩
    · exact h.offsets before j after' split
    · rw [offset, h.length]
  labels name labelOffset mem := by
    obtain ⟨l, hl, labelled, before, after, split, sum, lt, gt⟩ := h.labels name labelOffset mem
    refine ⟨l, List.mem_append_left _ hl, labelled, before, after ++ [i], ?_, sum, lt, ?_⟩
    · simp only [split, List.append_assoc]
    · intro j hj
      rcases List.mem_append.mp hj with hj | hj
      · exact gt j hj
      · cases List.mem_singleton.mp hj
        have later := earlier l hl
        rw [yields.1]
        omega

theorem Records.add (h : Records declarations body steps d) (earlier : ∀ t ∈ body, t.line < s.line)
    (step : d.Adds s d') (clean : d'.errors = []) :
    ∃ steps', Records declarations (body ++ [s]) steps' d' := by
  cases step with
  | declaredLabel _ _ => exact absurd clean (note_errors_ne_nil _)
  | repeatedLabel _ _ _ => exact absurd clean (note_errors_ne_nil _)
  | label label _ _ => exact ⟨steps, h.addLabel label earlier⟩
  | instruction unlabelled reads =>
    exact ⟨steps ++ [s], h.addInstruction unlabelled earlier ⟨rfl, reads⟩ rfl⟩
  | unknown _ _ => exact absurd clean (note_errors_ne_nil _)

theorem Declares.clean (step : d.Declares s d') (clean : d'.errors = []) : d.errors = [] := by
  cases step with
  | again _ => exact absurd clean (note_errors_ne_nil _)
  | fresh _ => exact clean

theorem Adds.clean (step : d.Adds s d') (clean : d'.errors = []) : d.errors = [] := by
  cases step with
  | declaredLabel _ _ => exact absurd clean (note_errors_ne_nil _)
  | repeatedLabel _ _ _ => exact absurd clean (note_errors_ne_nil _)
  | label _ _ _ => exact clean
  | instruction _ _ => exact clean
  | unknown _ _ => exact absurd clean (note_errors_ne_nil _)

theorem records_ofSource {source : String} (h : ofSource source = (d, none))
    (clean : d.errors = []) :
    ∃ steps, Records (divided source).1 (divided source).2 steps d := by
  have declared := declareAll_induction
    (P := fun done d => d.errors = [] → Records done [] [] d)
    (fun _ _ _ _ before step clean => (before (step.clean clean)).declare step clean)
    (divided source).1 (fun _ => records_empty)
  -- Lines in order are part of the invariant: they tell on which side of a label an instruction
  -- stands.
  have added := addAll_induction
    (P := fun done d => (done.map Statement.line).Pairwise (· < ·) → d.errors = [] →
      ∃ steps, Records (divided source).1 done steps d)
    (fun done s _ _ before step ordered clean => by
      rw [List.map_append, List.pairwise_append] at ordered
      obtain ⟨inside, -, across⟩ := ordered
      obtain ⟨steps, records⟩ := before inside (step.clean clean)
      refine records.add ?_ step clean
      intro t ht
      exact across _ (List.mem_map_of_mem ht) _ (List.mem_map_of_mem (List.mem_singleton.mpr rfl)))
    (fun _ => unended_divided) (fun _ clean => ⟨[], declared clean⟩) h
  have ordered := (Statement.statements_ofSource source).ordered
  rw [← divided_append, List.map_append, List.pairwise_append] at ordered
  exact added ordered.2.1 clean

end Draft

end BusMachine
