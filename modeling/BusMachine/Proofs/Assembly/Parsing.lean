import BusMachine.Proofs.Assembly.Defects
import BusMachine.Assembly.Assembler

/-!
Parsing accepts exactly the texts of the grammar, and otherwise reports exactly the bad statements.
The only other outcome is that of a numeral with too many digits, at which parsing ends.
-/
namespace BusMachine

open Text Grammar

namespace Statement

theorem mem_ofLines {n : Nat} {ls : List (List Char)} {s : Statement} :
    s ∈ ofLines n ls ↔ ∃ i l, ls[i]? = some l ∧ strip l ≠ [] ∧ s = ofLine (n + i) l := by
  induction ls generalizing n with
  | nil => simp [ofLines]
  | cons l ls ih =>
    have later : (∃ i l', (l :: ls)[i]? = some l' ∧ strip l' ≠ [] ∧ s = ofLine (n + i) l') ↔
        (strip l ≠ [] ∧ s = ofLine n l) ∨
          ∃ i l', ls[i]? = some l' ∧ strip l' ≠ [] ∧ s = ofLine (n + 1 + i) l' := by
      constructor
      · rintro ⟨_ | i, l', at_i, full, eq⟩
        · cases at_i
          exact .inl ⟨full, eq⟩
        · exact .inr ⟨i, l', at_i, full, by rw [eq, Nat.add_right_comm, Nat.add_assoc]⟩
      · rintro (⟨full, eq⟩ | ⟨i, l', at_i, full, eq⟩)
        · exact ⟨0, l, rfl, full, eq⟩
        · exact ⟨i + 1, l', at_i, full, by rw [eq, Nat.add_right_comm, Nat.add_assoc]⟩
    rw [ofLines, later]
    split
    · next empty => simp [ih, List.isEmpty_iff.mp empty]
    · next full =>
      have full : strip l ≠ [] := fun empty => full (List.isEmpty_iff.mpr empty)
      simp [ih, full]

theorem ofLines_ordered (n : Nat) (ls : List (List Char)) :
    ((ofLines n ls).map line).Pairwise (· < ·) := by
  induction ls generalizing n with
  | nil => exact .nil
  | cons l ls ih =>
    rw [ofLines]
    split
    · exact ih (n + 1)
    · refine List.pairwise_cons.mpr ⟨?_, ih (n + 1)⟩
      intro k hk
      obtain ⟨s, hs, rfl⟩ := List.mem_map.mp hk
      obtain ⟨i, l', -, -, rfl⟩ := mem_ofLines.mp hs
      show n < n + 1 + i
      omega

theorem statements_ofSource (source : String) : Statements source (ofSource source) := by
  refine ⟨ofLines_ordered 1 _, ?_⟩
  intro s
  rw [ofSource, mem_ofLines]
  constructor
  · rintro ⟨i, l, at_i, full, rfl⟩
    refine ⟨l, ⟨by simp [ofLine], ?_⟩, rfl, rfl, fun empty => full ?_⟩
    · simpa [ofLine] using at_i
    · simpa [ofLine] using empty
  · rintro ⟨l, ⟨positive, at_i⟩, raw, text, full⟩
    refine ⟨s.line - 1, l, at_i, fun empty => full ?_, ?_⟩
    · rw [text]
      exact congrArg String.ofList empty
    · obtain ⟨line, _, _⟩ := s
      simp only [ofLine, Nat.add_sub_cancel' positive, mk.injEq, true_and]
      exact ⟨raw, text⟩

theorem unended_ofSource {source : String} {s : Statement} (h : s ∈ ofSource source) :
    Unended s.text := by
  obtain ⟨l, -, -, text, -⟩ := ((statements_ofSource source).complete s).mp h
  rw [text]
  exact unended_trim _

theorem trimmed_raw {source : String} {s : Statement} (h : s ∈ ofSource source) {l : List Char}
    (raw : RawLine source s.line l) : trimmed s.raw = String.ofList (trim l) := by
  obtain ⟨l', ⟨_, at_line⟩, eq, -, -⟩ := ((statements_ofSource source).complete s).mp h
  rw [raw.2] at at_line
  cases at_line
  obtain ⟨ys, split, returns⟩ := exists_trimEndOf (· == '\r') l
  have blank : ∀ c ∈ ys, isBlank c = true := by
    intro c hc
    rw [eq_of_beq (returns c hc)]
    decide
  rw [eq, trimmed, String.toList_ofList]
  conv_rhs => rw [split, trim_append blank]

end Statement

namespace Draft

variable {source : String}

/-- The statements in front that declare variables, and the rest. -/
def divided (source : String) : List Statement × List Statement :=
  let declares (s : Statement) : Bool := Statement.declaresVariable s.text
  ((Statement.ofSource source).takeWhile declares, (Statement.ofSource source).dropWhile declares)

theorem divided_append (source : String) :
    (divided source).1 ++ (divided source).2 = Statement.ofSource source :=
  List.takeWhile_append_dropWhile

theorem divides (source : String) : Divides (divided source).1 (divided source).2 := by
  have mem {s : Statement} (h : s ∈ (divided source).1 ∨ s ∈ (divided source).2) :
      Unended s.text :=
    Statement.unended_ofSource (divided_append source ▸ List.mem_append.mpr h)
  constructor
  · intro s hs
    exact (declaresVariable_iff (mem (.inl hs))).mp (List.all_eq_true.mp List.all_takeWhile s hs)
  · intro s hs declaration
    have last := mem (.inr (List.mem_of_head? hs))
    have stopped :=
      List.head?_dropWhile_not (fun s : Statement => Statement.declaresVariable s.text)
      (Statement.ofSource source)
    have first : ((Statement.ofSource source).dropWhile
      (fun s : Statement => Statement.declaresVariable s.text)).head? = some s := hs
    rw [first] at stopped
    have other : Statement.declaresVariable s.text = false := stopped
    rw [(declaresVariable_iff last).mpr declaration] at other
    cases other

theorem unended_divided {s : Statement} (h : s ∈ (divided source).2) : Unended s.text :=
  Statement.unended_ofSource (divided_append source ▸ List.mem_append_right _ h)

theorem reflects_ofSource {d : Draft} (h : ofSource source = (d, none)) :
    Reflects (divided source).1 (divided source).2 d := by
  have declared : Reflects (divided source).1 [] ((divided source).1.foldl declare {}) :=
    declareAll_induction (P := fun done d => Reflects done [] d)
      (fun _ _ _ _ before step => before.declare step) (divided source).1 reflects_empty
  exact addAll_induction (P := fun done d => Reflects (divided source).1 done d)
    (fun _ _ _ _ before step => before.add step) (fun _ => unended_divided) declared h

theorem ofSource_completes
    (short : ∀ s ∈ Statement.ofSource source, ∀ w ∈ Statement.wordsOf s.text,
      digitCount w.toList ≤ Numeral.digitLimit) :
    ∃ d, ofSource source = (d, none) :=
  addAll_completes (fun _ => unended_divided)
    (fun s hs => short s (divided_append source ▸ List.mem_append_right _ hs)) _

/-- The reports name the lines of the bad statements, each line once and in order. -/
structure Reports (source : String) (declarations body : List Statement)
    (errors : List ParseError) :
    Prop where
  ordered : (errors.map ParseError.line).Pairwise (· < ·)
  exact : ∀ number text, (∃ e ∈ errors, e.line = number ∧ e.text = text) ↔
    ∃ s line, Bad declarations body s ∧ s.line = number ∧ RawLine source number line ∧
      text = String.ofList (trim line)

theorem bad_mem {declarations body : List Statement} {s : Statement} (h : Bad declarations body s) :
    s ∈ declarations ++ body := by
  cases h with
  | declaredAgain split => simp [split]
  | declaredLabel mem => exact List.mem_append_right _ mem
  | repeatedLabel split => simp [split]
  | unknown mem => exact List.mem_append_right _ mem

theorem reports_ofSource {d : Draft} (h : ofSource source = (d, none)) :
    Reports source (divided source).1 (divided source).2 d.errors := by
  have reflects := reflects_ofSource h
  have scanned := Statement.statements_ofSource source
  have ordered := reflects.ordered
  rw [divided_append] at ordered
  constructor
  · have lines := (ordered.map Prod.fst)
    rw [List.map_map, List.map_map] at lines
    exact scanned.ordered.sublist lines
  · intro number text
    have noted := reflects.exact (number, text)
    simp only [List.mem_map, ParseError.place, Statement.place, Prod.mk.injEq] at noted
    rw [noted]
    constructor
    · rintro ⟨s, bad, rfl, rfl⟩
      have mem := divided_append source ▸ bad_mem bad
      obtain ⟨line, raw, -⟩ := (scanned.complete s).mp mem
      exact ⟨s, line, bad, rfl, raw, Statement.trimmed_raw mem raw⟩
    · rintro ⟨s, line, bad, rfl, raw, rfl⟩
      have mem := divided_append source ▸ bad_mem bad
      exact ⟨s, bad, rfl, Statement.trimmed_raw mem raw⟩

end Draft

namespace Assembler

theorem parse_of_ofSource (a : Assembler) {source : String} {d : Draft}
    (h : Draft.ofSource source = (d, none)) : (a.parse source).2 = d.finish := by
  simp only [parse, h]

/-- A source text without overlong numerals is parsed exactly if it has no bad statement; otherwise
all of its bad statements are reported, the first of them first. -/
theorem parse_reports_bad_statements (a : Assembler) (source : String)
    (short : ∀ s ∈ Statement.ofSource source, ∀ w ∈ Statement.wordsOf s.text,
      digitCount w.toList ≤ Numeral.digitLimit) :
    ∃ declarations body, Statements source (declarations ++ body) ∧ Divides declarations body ∧
      ((∃ p, (a.parse source).2 = .ok p) ↔ ∀ s, ¬ Bad declarations body s) ∧
      ((∃ s, Bad declarations body s) → ∃ e es, (a.parse source).2 = .error (.parse e es) ∧
        Draft.Reports source declarations body (e :: es)) := by
  obtain ⟨d, finished⟩ := Draft.ofSource_completes short
  have reflects := Draft.reflects_ofSource finished
  have reports := Draft.reports_ofSource finished
  rw [a.parse_of_ofSource finished]
  refine ⟨(Draft.divided source).1, (Draft.divided source).2, ?_, Draft.divides source, ?_, ?_⟩
  · rw [Draft.divided_append]
    exact Statement.statements_ofSource source
  · rw [← reflects.clean_iff, Draft.finish]
    constructor
    · rintro ⟨p, ok⟩
      cases errors : d.errors with
      | nil => rfl
      | cons e es =>
        rw [errors] at ok
        cases ok
    · intro clean
      rw [clean]
      exact ⟨d.program, rfl⟩
  · rintro ⟨s, bad⟩
    cases errors : d.errors with
    | nil => exact absurd bad (reflects.clean_iff.mp errors s)
    | cons e es =>
      rw [Draft.finish, errors]
      exact ⟨e, es, rfl, errors ▸ reports⟩

def declaresTwice : String := "n ; count\nn\nloop :\nadd 1 %reg0\nloop:"

theorem parse_reports_declaresTwice :
    ∃ declarations body, Statements declaresTwice (declarations ++ body) ∧
      Divides declarations body ∧
      ((∃ p, ((ofSize 64).parse declaresTwice).2 = .ok p) ↔ ∀ s, ¬ Bad declarations body s) ∧
      ((∃ s, Bad declarations body s) →
        ∃ e es, ((ofSize 64).parse declaresTwice).2 = .error (.parse e es) ∧
          Draft.Reports declaresTwice declarations body (e :: es)) :=
  parse_reports_bad_statements (ofSize 64) declaresTwice (by decide)

end Assembler

end BusMachine
