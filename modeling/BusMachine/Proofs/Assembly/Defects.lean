import BusMachine.Proofs.Assembly.Drafting

/-!
The defects that a draft collects are those of the bad statements read so far, one for each of them
and in their order.
-/
namespace BusMachine

open Text

/-- The line that a report names, with its trimmed text. -/
def Statement.place (s : Statement) : Nat × String := (s.line, trimmed s.raw)

def ParseError.place (e : ParseError) : Nat × String := (e.line, e.text)

namespace Grammar

variable {declarations body : List Statement}

theorem Label.unended {text name : String} (h : Label text name) : Unended text := by
  obtain ⟨-, gap, -, spelled⟩ := h
  simp [Unended, spelled]

theorem Label.unique {text name name' : String} (h : Label text name) (h' : Label text name') :
    name = name' := by
  have found := (label?_eq_some_iff h.unended).mpr h
  rw [(label?_eq_some_iff h.unended).mpr h'] at found
  exact (Option.some.inj found).symm

/-- One more entry at the end leaves all other splittings as they were. -/
theorem snoc_eq_append_cons {α : Type} {xs before after : List α} {x y : α} :
    xs ++ [x] = before ++ y :: after ↔
      (∃ after', after = after' ++ [x] ∧ xs = before ++ y :: after') ∨
        (after = [] ∧ y = x ∧ xs = before) := by
  rcases List.eq_nil_or_concat after with rfl | ⟨after', z, rfl⟩
  · constructor
    · intro h
      obtain ⟨rfl, last⟩ := List.append_inj' h rfl
      exact .inr ⟨rfl, (List.cons.inj last).1.symm, rfl⟩
    · rintro (⟨after', empty, -⟩ | ⟨-, rfl, rfl⟩)
      · exact absurd empty (by simp)
      · rfl
  · rw [List.concat_eq_append, ← List.cons_append, ← List.append_assoc]
    constructor
    · intro h
      obtain ⟨rfl, last⟩ := List.append_inj' h rfl
      exact .inl ⟨after', by rw [(List.cons.inj last).1], rfl⟩
    · rintro (⟨after'', same, rfl⟩ | ⟨empty, -, -⟩)
      · obtain ⟨rfl, last⟩ := List.append_inj' same rfl
        rw [last]
      · exact absurd empty (by simp)

theorem bad_declarations_snoc {s t : Statement} :
    Bad (declarations ++ [s]) [] t ↔
      Bad declarations [] t ∨ t = s ∧ ∃ e ∈ declarations, e.text = s.text := by
  constructor
  · intro h
    cases h with
    | declaredAgain split earlier same =>
      rcases snoc_eq_append_cons.mp split with ⟨after', -, rfl⟩ | ⟨-, rfl, rfl⟩
      · exact .inl (.declaredAgain rfl earlier same)
      · exact .inr ⟨rfl, _, earlier, same⟩
    | declaredLabel mem => cases mem
    | repeatedLabel split => exact absurd split (by simp)
    | unknown mem => cases mem
  · rintro (h | ⟨rfl, e, earlier, same⟩)
    · cases h with
      | declaredAgain split earlier same =>
        exact .declaredAgain (snoc_eq_append_cons.mpr (.inl ⟨_, rfl, split⟩)) earlier same
      | declaredLabel mem => cases mem
      | repeatedLabel split => exact absurd split (by simp)
      | unknown mem => cases mem
    · exact .declaredAgain rfl earlier same

/-- What makes a statement bad that follows that much of a body. -/
inductive BadNext (declarations body : List Statement) (s : Statement) : Prop where
  | declaredLabel {e : Statement} {name : String} :
      Label s.text name → e ∈ declarations → e.text = name → BadNext declarations body s
  | repeatedLabel {e : Statement} {name : String} :
      Label s.text name → e ∈ body → Label e.text name → BadNext declarations body s
  | unknown : (∀ name, ¬ Label s.text name) → (∀ c, ¬ Spells s.text c) → BadNext declarations body s

theorem bad_body_snoc {s t : Statement} :
    Bad declarations (body ++ [s]) t ↔
      Bad declarations body t ∨ t = s ∧ BadNext declarations body s := by
  constructor
  · intro h
    cases h with
    | declaredAgain split earlier same => exact .inl (.declaredAgain split earlier same)
    | declaredLabel mem label declared same =>
      rcases List.mem_append.mp mem with mem | mem
      · exact .inl (.declaredLabel mem label declared same)
      · cases List.mem_singleton.mp mem
        exact .inr ⟨rfl, .declaredLabel label declared same⟩
    | repeatedLabel split label earlier same =>
      rcases snoc_eq_append_cons.mp split with ⟨after', -, rfl⟩ | ⟨-, rfl, rfl⟩
      · exact .inl (.repeatedLabel rfl label earlier same)
      · exact .inr ⟨rfl, .repeatedLabel label earlier same⟩
    | unknown mem unlabelled unknown =>
      rcases List.mem_append.mp mem with mem | mem
      · exact .inl (.unknown mem unlabelled unknown)
      · cases List.mem_singleton.mp mem
        exact .inr ⟨rfl, .unknown unlabelled unknown⟩
  · rintro (h | ⟨rfl, h⟩)
    · cases h with
      | declaredAgain split earlier same => exact .declaredAgain split earlier same
      | declaredLabel mem label declared same =>
        exact .declaredLabel (List.mem_append_left _ mem) label declared same
      | repeatedLabel split label earlier same =>
        exact .repeatedLabel (snoc_eq_append_cons.mpr (.inl ⟨_, rfl, split⟩)) label earlier same
      | unknown mem unlabelled unknown =>
        exact .unknown (List.mem_append_left _ mem) unlabelled unknown
    · have last : t ∈ body ++ [t] := List.mem_append_right _ (List.mem_singleton.mpr rfl)
      cases h with
      | declaredLabel label declared same => exact .declaredLabel last label declared same
      | repeatedLabel label earlier same => exact .repeatedLabel rfl label earlier same
      | unknown unlabelled unknown => exact .unknown last unlabelled unknown

end Grammar

open Grammar

namespace Draft

/-- What a draft knows after those declarations and that much of the body. -/
structure Reflects (declarations body : List Statement) (d : Draft) : Prop where
  declared : ∀ name, d.isDeclared name = true ↔ ∃ s ∈ declarations, s.text = name
  labelled : ∀ name, d.isDeclared name = false →
    (d.isLabel name = true ↔ ∃ s ∈ body, Label s.text name)
  ordered : (d.errors.map ParseError.place).Sublist ((declarations ++ body).map Statement.place)
  exact : ∀ p, p ∈ d.errors.map ParseError.place ↔ ∃ s, Bad declarations body s ∧ s.place = p

variable {declarations body : List Statement} {d d' : Draft} {s : Statement}

theorem reflects_empty : Reflects [] [] {} where
  declared name := by simp [isDeclared]
  labelled name _ := by simp [isLabel]
  ordered := by simp
  exact p := by
    constructor
    · intro h
      cases h
    · rintro ⟨s, bad, -⟩
      cases bad with
      | declaredAgain split => exact absurd split (by simp)
      | declaredLabel mem => cases mem
      | repeatedLabel split => exact absurd split (by simp)
      | unknown mem => cases mem

@[simp] theorem note_isDeclared (what : Defect) (name : String) :
    (d.note s what).isDeclared name = d.isDeclared name := rfl

@[simp] theorem note_isLabel (what : Defect) (name : String) :
    (d.note s what).isLabel name = d.isLabel name := rfl

theorem note_places (what : Defect) :
    (d.note s what).errors.map ParseError.place = d.errors.map ParseError.place ++ [s.place] := by
  simp [note, ParseError.place, Statement.place]

theorem Reflects.declare (h : Reflects declarations [] d) (step : d.Declares s d') :
    Reflects (declarations ++ [s]) [] d' := by
  cases step with
  | again known =>
    -- The name is declared already, so no other name becomes known.
    obtain ⟨e, earlier, same⟩ := (h.declared s.text).mp known
    constructor
    · intro name
      rw [note_isDeclared, h.declared]
      simp only [List.mem_append, List.mem_singleton, or_and_right, exists_or, exists_eq_left]
      constructor
      · intro before
        exact .inl before
      · rintro (before | last)
        · exact before
        · exact ⟨e, earlier, same.trans last⟩
    · exact h.labelled
    · have ordered :
          (d.errors.map ParseError.place).Sublist (declarations.map Statement.place) := by
        simpa using h.ordered
      rw [note_places, List.append_nil, List.map_append]
      exact ordered.append (.refl _)
    · intro p
      rw [note_places, List.mem_append, h.exact]
      simp only [bad_declarations_snoc, or_and_right, exists_or, List.mem_singleton]
      refine or_congr_right ?_
      constructor
      · intro eq
        exact ⟨s, ⟨rfl, e, earlier, same⟩, eq.symm⟩
      · rintro ⟨t, ⟨rfl, -⟩, place⟩
        exact place.symm
  | fresh unknown =>
    constructor
    · intro name
      have before := h.declared name
      simp only [isDeclared] at before
      simp [isDeclared, before, or_and_right, exists_or]
    · intro name undeclared
      simp only [isDeclared, List.any_append, Bool.or_eq_false_iff] at undeclared
      exact h.labelled name undeclared.1
    · have ordered :
          (d.errors.map ParseError.place).Sublist (declarations.map Statement.place) := by
        simpa using h.ordered
      rw [List.append_nil, List.map_append]
      exact ordered.trans (List.sublist_append_left _ _)
    · intro p
      rw [h.exact]
      simp only [bad_declarations_snoc]
      refine exists_congr fun t => and_congr_left fun _ => (or_iff_left ?_).symm
      rintro ⟨rfl, known⟩
      rw [(h.declared _).mpr known] at unknown
      cases unknown

theorem Reflects.note (h : Reflects declarations body d) (bad : BadNext declarations body s)
    (known : ∀ name, d.isDeclared name = false → Label s.text name → d.isLabel name = true)
    (what : Defect) : Reflects declarations (body ++ [s]) (d.note s what) := by
  constructor
  · exact h.declared
  · intro name undeclared
    rw [note_isLabel, h.labelled name undeclared]
    simp only [List.mem_append, List.mem_singleton, or_and_right, exists_or, exists_eq_left]
    constructor
    · intro before
      exact .inl before
    · rintro (before | label)
      · exact before
      · exact (h.labelled name undeclared).mp (known name undeclared label)
  · rw [note_places, ← List.append_assoc, List.map_append]
    exact h.ordered.append (.refl _)
  · intro p
    rw [note_places, List.mem_append, h.exact]
    simp only [bad_body_snoc, or_and_right, exists_or, List.mem_singleton]
    refine or_congr_right ?_
    constructor
    · intro eq
      exact ⟨s, ⟨rfl, bad⟩, eq.symm⟩
    · rintro ⟨t, ⟨rfl, -⟩, place⟩
      exact place.symm

theorem Reflects.grow (h : Reflects declarations body d) (good : ¬ BadNext declarations body s)
    (declared : ∀ name, d'.isDeclared name = d.isDeclared name) (errors : d'.errors = d.errors)
    (labels : ∀ name, d'.isLabel name = true ↔ d.isLabel name = true ∨ Label s.text name) :
    Reflects declarations (body ++ [s]) d' := by
  constructor
  · intro name
    rw [declared, h.declared]
  · intro name undeclared
    rw [declared] at undeclared
    rw [labels, h.labelled name undeclared]
    simp only [List.mem_append, List.mem_singleton, or_and_right, exists_or, exists_eq_left]
  · rw [errors, ← List.append_assoc, List.map_append]
    exact h.ordered.trans (List.sublist_append_left _ _)
  · intro p
    rw [errors, h.exact]
    simp only [bad_body_snoc]
    refine exists_congr fun t => and_congr_left fun _ => (or_iff_left ?_).symm
    rintro ⟨-, bad⟩
    exact good bad

theorem Reflects.add (h : Reflects declarations body d) (step : d.Adds s d') :
    Reflects declarations (body ++ [s]) d' := by
  cases step with
  | @declaredLabel name label declared =>
    obtain ⟨e, earlier, same⟩ := (h.declared name).mp declared
    apply h.note (.declaredLabel label earlier same)
    intro name' undeclared label'
    rw [label.unique label', undeclared] at declared
    cases declared
  | @repeatedLabel name label undeclared known =>
    obtain ⟨e, earlier, label'⟩ := (h.labelled name undeclared).mp known
    apply h.note (.repeatedLabel label earlier label')
    intro name' _ other
    rw [← label.unique other]
    exact known
  | @label name label undeclared new =>
    apply h.grow
    · intro bad
      cases bad with
      | declaredLabel label' earlier same =>
        cases label.unique label'
        rw [(h.declared name).mpr ⟨_, earlier, same⟩] at undeclared
        cases undeclared
      | repeatedLabel label' earlier again =>
        cases label.unique label'
        rw [(h.labelled name undeclared).mpr ⟨_, earlier, again⟩] at new
        cases new
      | unknown unlabelled _ => exact unlabelled name label
    · intro name'
      rfl
    · rfl
    · intro name'
      have same : Label s.text name' ↔ name = name' := by
        constructor
        · intro other
          exact label.unique other
        · rintro rfl
          exact label
      rw [same]
      simp [isLabel]
  | @instruction c operands unlabelled reads =>
    apply h.grow
    · intro bad
      cases bad with
      | declaredLabel label => exact unlabelled _ label
      | repeatedLabel label => exact unlabelled _ label
      | unknown _ unknown => exact unknown c reads.spells
    · intro name
      rfl
    · rfl
    · intro name
      exact (or_iff_left (unlabelled name)).symm
  | unknown unlabelled unknown =>
    apply h.note (.unknown unlabelled unknown)
    intro name _ label
    exact absurd label (unlabelled name)

theorem Reflects.clean_iff (h : Reflects declarations body d) :
    d.errors = [] ↔ ∀ s, ¬ Bad declarations body s := by
  constructor
  · intro clean s bad
    have noted := (h.exact s.place).mpr ⟨s, bad, rfl⟩
    rw [clean] at noted
    cases noted
  · intro good
    cases errors : d.errors with
    | nil => rfl
    | cons e es =>
      have noted : e.place ∈ d.errors.map ParseError.place := by
        rw [errors]
        exact List.mem_cons_self ..
      obtain ⟨s, bad, -⟩ := (h.exact e.place).mp noted
      exact absurd bad (good s)

end Draft

end BusMachine
