import BusMachine.Proofs.Assembly.Recognition

/-!
How a draft grows. One statement adds a name, an instruction or a defect to it, and nothing else;
what every such step preserves holds of the draft of a whole text.
-/
namespace BusMachine

open Text Grammar

namespace Draft

theorem isDeclared_iff (d : Draft) (name : String) :
    d.isDeclared name = true ↔ name ∈ d.program.variableNames := by
  simp [isDeclared, program]

theorem isLabel_iff (d : Draft) (name : String) :
    d.isLabel name = true ↔ name ∈ d.program.labels.map Prod.fst := by
  simp [isLabel, program]

/-- What a declaration makes of a draft. -/
inductive Declares (d : Draft) (s : Statement) : Draft → Prop where
  | again : d.isDeclared s.text = true → Declares d s (d.note s (.duplicateVariable s.text))
  | fresh : d.isDeclared s.text = false →
      Declares d s { d with declarations := d.declarations ++ [(s.text, s.line)] }

/-- What a statement of the body makes of a draft. -/
inductive Adds (d : Draft) (s : Statement) : Draft → Prop where
  | declaredLabel {name : String} : Label s.text name → d.isDeclared name = true →
      Adds d s (d.note s (.labelIsVariable name))
  | repeatedLabel {name : String} : Label s.text name → d.isDeclared name = false →
      d.isLabel name = true → Adds d s (d.note s (.duplicateLabel name))
  | label {name : String} : Label s.text name → d.isDeclared name = false → d.isLabel name = false →
      Adds d s { d with labels := d.labels ++ [(name, (d.length : Int))] }
  | instruction {c : Opcode} {operands : List Operand} : (∀ name, ¬ Label s.text name) →
      ReadsAs s.text c operands →
      Adds d s { d with
        instructions := d.instructions ++ [⟨c, operands, s.line, s.raw, d.length⟩]
        length := d.length + (1 + operands.length) }
  | unknown {what : Defect} : (∀ name, ¬ Label s.text name) → (∀ c, ¬ Spells s.text c) →
      Adds d s (d.note s what)

theorem declare_declares (d : Draft) (s : Statement) : d.Declares s (d.declare s) := by
  rw [declare]
  cases h : d.isDeclared s.text with
  | true => exact .again h
  | false => exact .fresh h

/-- Only a numeral of too many digits keeps a statement from being added. -/
theorem add_cases (d : Draft) {s : Statement} (h : Unended s.text) :
    (∃ d', d.add s = .ok d' ∧ d.Adds s d') ∨
      (∃ e, d.add s = .error e ∧
        ∃ w ∈ Statement.wordsOf s.text, Numeral.digitLimit < digitCount w.toList) := by
  rw [add]
  cases found : Statement.label? s.text with
  | some name =>
    have label := (label?_eq_some_iff h).mp found
    refine .inl ⟨d.addLabel s name, rfl, ?_⟩
    rw [addLabel]
    cases declared : d.isDeclared name with
    | true => exact .declaredLabel label declared
    | false =>
      cases known : d.isLabel name with
      | true => exact .repeatedLabel label declared known
      | false => exact .label label declared known
  | none =>
    have unlabelled := (label?_eq_none_iff h).mp found
    simp only [addInstruction]
    rcases readInstruction_cases s.text with
      ⟨c, operands, read, reads⟩ | ⟨what, read, unknown⟩ | ⟨e, read, long⟩
    · rw [read]
      exact .inl ⟨_, rfl, .instruction unlabelled reads⟩
    · rw [read]
      exact .inl ⟨_, rfl, .unknown unlabelled unknown⟩
    · rw [read]
      exact .inr ⟨e, rfl, long⟩

theorem addAll_of_ok {d d' : Draft} {s : Statement} (ss : List Statement) (h : d.add s = .ok d') :
    d.addAll (s :: ss) = d'.addAll ss := by
  simp only [addAll, h]

theorem addAll_of_error {d : Draft} {s : Statement} (ss : List Statement) {e : NumeralError}
    (h : d.add s = .error e) : d.addAll (s :: ss) = (d, some e) := by
  simp only [addAll, h]

theorem declareAll_induction {P : List Statement → Draft → Prop}
    (step : ∀ done s d d', P done d → d.Declares s d' → P (done ++ [s]) d')
    (ss : List Statement) {done : List Statement} {d : Draft} (start : P done d) :
    P (done ++ ss) (ss.foldl declare d) := by
  induction ss generalizing done d with
  | nil => simpa using start
  | cons s ss ih =>
    have next := ih (step done s d _ start (d.declare_declares s))
    rwa [List.append_assoc] at next

/-- What holds at the start and is preserved by every statement holds at the end. -/
theorem addAll_induction {P : List Statement → Draft → Prop}
    (step : ∀ done s d d', P done d → d.Adds s d' → P (done ++ [s]) d') {ss : List Statement}
    (unended : ∀ s ∈ ss, Unended s.text) {done : List Statement} {d d' : Draft} (start : P done d)
    (h : d.addAll ss = (d', none)) : P (done ++ ss) d' := by
  induction ss generalizing done d with
  | nil =>
    cases h
    simpa using start
  | cons s ss ih =>
    rcases d.add_cases (unended s (List.mem_cons_self ..)) with ⟨next, ok, adds⟩ | ⟨e, error, -⟩
    · rw [addAll_of_ok ss ok] at h
      have result :=
        ih (fun t ht => unended t (List.mem_cons_of_mem _ ht)) (step done s d _ start adds) h
      rwa [List.append_assoc] at result
    · rw [addAll_of_error ss error] at h
      cases h

theorem addAll_completes {ss : List Statement} (unended : ∀ s ∈ ss, Unended s.text)
    (short : ∀ s ∈ ss, ∀ w ∈ Statement.wordsOf s.text, digitCount w.toList ≤ Numeral.digitLimit)
    (d : Draft) : ∃ d', d.addAll ss = (d', none) := by
  induction ss generalizing d with
  | nil => exact ⟨d, rfl⟩
  | cons s ss ih =>
    rcases d.add_cases (unended s (List.mem_cons_self ..)) with ⟨next, ok, -⟩ | ⟨e, -, w, hw, long⟩
    · rw [addAll_of_ok ss ok]
      exact ih (fun t ht => unended t (List.mem_cons_of_mem _ ht))
        (fun t ht => short t (List.mem_cons_of_mem _ ht)) next
    · exact absurd long (Nat.not_lt.mpr (short s (List.mem_cons_self ..) w hw))

end Draft

end BusMachine
