import BusMachine.Proofs.Assembly.Grammar
import BusMachine.Proofs.Text.Blanks
import BusMachine.Assembly.Draft

/-!
The recognizers of the assembler accept exactly what the grammar says. They are only applied to
trimmed text and to words, and so the line feed that they tolerate at the end never occurs.
-/
namespace BusMachine

open Text

theorem Opcode.mem_all (c : Opcode) : c ∈ Opcode.all := by
  cases c <;> decide

theorem Opcode.withForm?_eq_none {mnemonic : String} {kinds : List OperandKind}
    (h : Opcode.withForm? mnemonic kinds = none) (c : Opcode) :
    ¬ (c.mnemonic = mnemonic ∧ c.kinds = kinds) := by
  have other := List.find?_eq_none.mp h c c.mem_all
  simpa using other

theorem Opcode.of_withForm? {mnemonic : String} {kinds : List OperandKind} {c : Opcode}
    (h : Opcode.withForm? mnemonic kinds = some c) : c.mnemonic = mnemonic ∧ c.kinds = kinds := by
  simpa using List.find?_some h

namespace Grammar

/-- Texts in which the tolerated line feed does not occur. -/
def Unended (text : String) : Prop := text.toList.getLast? ≠ some '\n'

instance (text : String) : Decidable (Unended text) :=
  inferInstanceAs (Decidable (text.toList.getLast? ≠ some '\n'))

theorem Unended.same {text : String} (h : Unended text) :
    Statement.withoutFinalNewline text.toList = text.toList := by
  rw [Statement.withoutFinalNewline, if_neg (fun last => h (eq_of_beq last))]

theorem unended_word (text : String) {word : String} (h : word ∈ Statement.wordsOf text) :
    Unended word := by
  obtain ⟨cs, hcs, rfl⟩ := List.mem_map.mp h
  intro last
  have blank := (words_not_blank hcs).2 '\n' (by simpa using List.mem_of_getLast? last)
  exact absurd blank (by decide)

theorem unended_trim (cs : List Char) : Unended (String.ofList (trim cs)) := by
  intro last
  have blank :=
    trimEndOf_getLast? isBlank (cs.dropWhile isBlank) '\n' (by simpa [trim, trimOf] using last)
  exact absurd blank (by decide)

theorem isName_iff {name : String} : Statement.isName name.toList = true ↔ Identifier name := by
  rw [Identifier]
  cases name.toList with
  | nil => simp [Statement.isName]
  | cons c cs =>
    simp only [Statement.isName, Statement.isLetter, Bool.and_eq_true, List.all_eq_true,
      Statement.isNameChar]
    constructor
    · rintro ⟨letter, rest⟩
      exact ⟨c, cs, rfl, letter, rest⟩
    · rintro ⟨_, _, eq, letter, rest⟩
      cases eq
      exact ⟨letter, rest⟩

theorem isName_ofList {cs : List Char} :
    Statement.isName cs = true ↔ Identifier (String.ofList cs) := by
  rw [← isName_iff, String.toList_ofList]

theorem Identifier.alphanum {name : String} (h : Identifier name) :
    ∀ c ∈ name.toList, Statement.isNameChar c = true := by
  obtain ⟨c, cs, spelled, letter, rest⟩ := h
  rw [spelled]
  intro d hd
  rcases List.mem_cons.mp hd with rfl | hd
  · simp [Statement.isNameChar, Char.isAlphanum, letter]
  · exact rest d hd

theorem spellsMnemonic_iff {word : String} :
    Statement.spellsMnemonic word = true ↔ Mnemonic word := by
  rw [Statement.spellsMnemonic, Opcode.isMnemonic, List.any_eq_true]
  constructor
  · rintro ⟨c, -, h⟩
    exact ⟨c, (eq_of_beq h).symm⟩
  · rintro ⟨c, h⟩
    exact ⟨c, c.mem_all, beq_iff_eq.mpr h.symm⟩

theorem declaresVariable_iff {text : String} (h : Unended text) :
    Statement.declaresVariable text = true ↔ Declaration text := by
  rw [Statement.declaresVariable, h.same, Bool.and_eq_true, isName_iff, Declaration,
    Bool.not_eq_true', ← Bool.not_eq_true, spellsMnemonic_iff]

theorem isNameChar_range {c : Char} (h : Statement.isNameChar c = true) :
    48 ≤ c.toNat ∧ c.toNat ≤ 122 := by
  simp only [Statement.isNameChar, Char.isAlphanum] at h
  delta Char.isAlpha Char.isUpper Char.isLower at h
  simp [Char.isDigit, UInt32.le_iff_toNat_le] at h
  omega

theorem isNameChar_of_isBlank {c : Char} (h : isBlank c = true) :
    Statement.isNameChar c = false := by
  cases named : Statement.isNameChar c with
  | false => rfl
  | true =>
    have range := isNameChar_range named
    simp [isBlank] at h
    omega

theorem takeWhile_gap {gap : List Char} (blank : ∀ c ∈ gap, isBlank c = true) :
    (gap ++ [':']).takeWhile Statement.isNameChar = [] := by
  cases gap with
  | nil => rfl
  | cons c cs =>
    exact List.takeWhile_cons_of_neg
      (by simp [isNameChar_of_isBlank (blank c (List.mem_cons_self ..))])

theorem dropWhile_gap {gap : List Char} (blank : ∀ c ∈ gap, isBlank c = true) :
    (gap ++ [':']).dropWhile Statement.isNameChar = gap ++ [':'] := by
  cases gap with
  | nil => rfl
  | cons c cs =>
    exact List.dropWhile_cons_of_neg
      (by simp [isNameChar_of_isBlank (blank c (List.mem_cons_self ..))])

theorem label?_eq_some_iff {text name : String} (h : Unended text) :
    Statement.label? text = some name ↔ Label text name := by
  rw [Statement.label?, h.same]
  constructor
  · intro found
    simp only [Bool.and_eq_true, beq_iff_eq, Option.ite_none_right_eq_some,
      Option.some.injEq] at found
    obtain ⟨⟨identifier, colon⟩, rfl⟩ := found
    refine ⟨isName_ofList.mp identifier,
      (text.toList.dropWhile Statement.isNameChar).takeWhile isBlank, ?_, ?_⟩
    · intro c hc
      exact List.all_eq_true.mp List.all_takeWhile c hc
    · rw [← colon, List.append_assoc, List.takeWhile_append_dropWhile, String.toList_ofList,
        List.takeWhile_append_dropWhile]
  · rintro ⟨identifier, gap, blank, spelled⟩
    rw [List.append_assoc] at spelled
    have name_taken : text.toList.takeWhile Statement.isNameChar = name.toList := by
      rw [spelled, List.takeWhile_append_of_pos identifier.alphanum, takeWhile_gap blank,
        List.append_nil]
    have gap_left : text.toList.dropWhile Statement.isNameChar = gap ++ [':'] := by
      rw [spelled, List.dropWhile_append_of_pos identifier.alphanum, dropWhile_gap blank]
    have colon : (gap ++ [':']).dropWhile isBlank = [':'] := List.dropWhile_append_of_pos blank
    simp only [name_taken, gap_left, colon, isName_iff.mpr identifier, String.ofList_toList]
    rfl

theorem label?_eq_none_iff {text : String} (h : Unended text) :
    Statement.label? text = none ↔ ∀ name, ¬ Label text name := by
  simp only [Option.eq_none_iff_forall_ne_some, ne_eq, label?_eq_some_iff h]

theorem Label.not_declaration {text name : String} (h : Label text name) : ¬ Declaration text := by
  rintro ⟨identifier, -⟩
  obtain ⟨-, gap, -, spelled⟩ := h
  have colon : ':' ∈ text.toList := by simp [spelled]
  exact absurd (identifier.alphanum ':' colon) (by decide)

theorem isImmediate_iff {cs : List Char} : Operand.isImmediate cs = true ↔ ∃ n, Decimal cs n := by
  have digits_iff : ∀ ds : List Char, (!ds.isEmpty && ds.all Char.isDigit) = true ↔ Digits ds := by
    intro ds
    cases ds <;> simp [Digits]
  unfold Operand.isImmediate
  constructor
  · intro h
    split at h
    · exact ⟨_, .plus ((digits_iff _).mp h)⟩
    · exact ⟨_, .minus ((digits_iff _).mp h)⟩
    · exact ⟨_, .plain ((digits_iff _).mp h)⟩
  · rintro ⟨n, decimal⟩
    cases decimal with
    | plus digits => exact (digits_iff _).mpr digits
    | minus digits => exact (digits_iff _).mpr digits
    | plain digits =>
      split
      · exact absurd (digits.2 '+' (List.mem_cons_self ..)) (by decide)
      · exact absurd (digits.2 '-' (List.mem_cons_self ..)) (by decide)
      · exact (digits_iff _).mpr digits

/-- The kind of an operand shows in its first character. -/
def kindOfFirst (c : Char) : OperandKind :=
  if c = '%' then .register else if c.isAlpha then .memory else .immediate

theorem toList_percent (name : String) : ("%" ++ name).toList = '%' :: name.toList := by
  simp

theorem Decimal.first {cs : List Char} {n : Int} (h : Decimal cs n) :
    ∃ c rest, cs = c :: rest ∧ kindOfFirst c = .immediate := by
  obtain ⟨c, rest, rfl, digit | rfl | rfl⟩ := h.head
  · have range := isDigit_range digit
    have noLetter : c.isAlpha = false := by
      delta Char.isAlpha Char.isUpper Char.isLower
      simp [UInt32.le_iff_toNat_le] at *
      omega
    exact ⟨c, rest, rfl, by rw [kindOfFirst, if_neg (isDigit_ne digit rfl), noLetter]; rfl⟩
  · exact ⟨_, _, rfl, rfl⟩
  · exact ⟨_, _, rfl, rfl⟩

theorem HasKind.first {word : String} {kind : OperandKind} (h : HasKind word kind) :
    ∃ c rest, word.toList = c :: rest ∧ kindOfFirst c = kind := by
  cases kind with
  | register =>
    obtain ⟨name, -, rfl⟩ := h
    exact ⟨'%', name.toList, toList_percent name, rfl⟩
  | memory =>
    obtain ⟨c, cs, spelled, letter, -⟩ := h
    have other : c ≠ '%' := by
      rintro rfl
      exact absurd letter (by decide)
    exact ⟨c, cs, spelled, by rw [kindOfFirst, if_neg other, if_pos letter]⟩
  | immediate =>
    obtain ⟨n, decimal⟩ := h
    exact Decimal.first decimal

theorem HasKind.unique {word : String} {kind kind' : OperandKind} (h : HasKind word kind)
    (h' : HasKind word kind') : kind = kind' := by
  obtain ⟨c, rest, spelled, rfl⟩ := h.first
  obtain ⟨c', rest', spelled', rfl⟩ := h'.first
  rw [spelled] at spelled'
  rw [(List.cons.inj spelled').1]

theorem Reads.hasKind {word : String} {o : Operand} (h : Reads word o) : HasKind word o.kind := by
  cases h with
  | register identifier => exact ⟨_, identifier, rfl⟩
  | symbol identifier => exact identifier
  | literal decimal => exact ⟨_, decimal⟩

theorem ofWord_cases {word : String} (h : Unended word) :
    (∃ o, Operand.ofWord word = .ok (some o) ∧ Reads word o) ∨
      (Operand.ofWord word = .ok none ∧ ∀ kind, ¬ HasKind word kind) ∨
      (∃ e, Operand.ofWord word = .error e ∧ Numeral.digitLimit < digitCount word.toList) := by
  simp only [Operand.ofWord, h.same]
  split
  · next name spelled =>
    have whole : word = "%" ++ String.ofList name := by
      rw [← String.toList_inj, spelled, toList_percent, String.toList_ofList]
    split
    · next named => exact .inl ⟨_, rfl, whole ▸ .register (isName_ofList.mp named)⟩
    · next unnamed =>
      refine .inr (.inl ⟨rfl, ?_⟩)
      intro kind has
      obtain ⟨c, rest, first, rfl⟩ := has.first
      rw [spelled] at first
      cases first
      -- A percent sign begins registers alone.
      obtain ⟨name', identifier, same⟩ := has
      rw [same, toList_percent] at spelled
      cases spelled
      exact unnamed (isName_iff.mpr identifier)
  · next notRegister =>
    split
    · next named => exact .inl ⟨_, rfl, .symbol (isName_iff.mp named)⟩
    · next unnamed =>
      split
      · next immediate =>
        obtain ⟨n, decimal⟩ := isImmediate_iff.mp immediate
        rw [decimal.read]
        split
        · next long => exact .inr (.inr ⟨_, rfl, long⟩)
        · exact .inl ⟨_, rfl, .literal decimal⟩
      · next noImmediate =>
        refine .inr (.inl ⟨rfl, ?_⟩)
        intro kind has
        cases kind with
        | register =>
          obtain ⟨name, -, rfl⟩ := has
          exact notRegister name.toList (toList_percent name)
        | memory => exact unnamed (isName_iff.mpr has)
        | immediate => exact noImmediate (isImmediate_iff.mpr has)

theorem Reads.haveKinds {words : List String} {operands : List Operand}
    (h : List.Forall₂ Reads words operands) :
    List.Forall₂ HasKind words (operands.map Operand.kind) :=
  List.forall₂_map_right_iff.mpr (h.imp (fun _ _ read => read.hasKind))

theorem HasKind.all_unique {words : List String} {kinds kinds' : List OperandKind}
    (h : List.Forall₂ HasKind words kinds) (h' : List.Forall₂ HasKind words kinds') :
    kinds = kinds' :=
  List.right_unique_forall₂' (fun _ _ _ has has' => has.unique has') h h'

theorem readOperands_cases (text : String) :
    ∀ words : List String, (∀ w ∈ words, Unended w) →
      (∃ operands, Draft.readOperands text words = .ok operands ∧
        List.Forall₂ Reads words operands) ∨
        (∃ what, Draft.readOperands text words = .error (.defect what) ∧
          ∀ kinds, ¬ List.Forall₂ HasKind words kinds) ∨
        (∃ e, Draft.readOperands text words = .error (.numeral e) ∧
          ∃ w ∈ words, Numeral.digitLimit < digitCount w.toList) := by
  intro words
  induction words with
  | nil => exact fun _ => .inl ⟨[], rfl, .nil⟩
  | cons w ws ih =>
    intro unended
    rcases ofWord_cases (unended w (List.mem_cons_self ..)) with
      ⟨o, read, is⟩ | ⟨read, bad⟩ | ⟨e, read, long⟩
    · rcases ih (fun v hv => unended v (List.mem_cons_of_mem _ hv)) with
        ⟨os, rest, are⟩ | ⟨what, rest, bad⟩ | ⟨e, rest, v, hv, long⟩
      · exact .inl ⟨o :: os, by rw [Draft.readOperands, read, rest]; rfl, .cons is are⟩
      · refine .inr (.inl ⟨what, by rw [Draft.readOperands, read, rest]; rfl, ?_⟩)
        intro kinds has
        cases has with
        | cons _ has => exact bad _ has
      · exact .inr (.inr ⟨e, by rw [Draft.readOperands, read, rest]; rfl, v,
          List.mem_cons_of_mem _ hv, long⟩)
    · refine .inr (.inl ⟨_, by rw [Draft.readOperands, read], ?_⟩)
      intro kinds has
      cases has with
      | cons has _ => exact bad _ has
    · exact .inr (.inr ⟨e, by rw [Draft.readOperands, read], w, List.mem_cons_self .., long⟩)

theorem ReadsAs.spells {text : String} {c : Opcode} {operands : List Operand}
    (h : ReadsAs text c operands) : Spells text c := by
  obtain ⟨first, words, split, mnemonic, read, kinds⟩ := h
  exact ⟨first, words, split, mnemonic, kinds ▸ Reads.haveKinds read⟩

theorem readInstruction_cases (text : String) :
    (∃ c operands, Draft.readInstruction text = .ok (c, operands) ∧ ReadsAs text c operands) ∨
      (∃ what, Draft.readInstruction text = .error (.defect what) ∧ ∀ c, ¬ Spells text c) ∨
      (∃ e, Draft.readInstruction text = .error (.numeral e) ∧
        ∃ w ∈ Statement.wordsOf text, Numeral.digitLimit < digitCount w.toList) := by
  rw [Draft.readInstruction]
  cases split : Statement.wordsOf text with
  | nil =>
    refine .inr (.inl ⟨_, rfl, fun c ⟨first, words, split', _⟩ => ?_⟩)
    rw [split] at split'
    cases split'
  | cons first words =>
    have spelled_split {c : Opcode} (h : Spells text c) :
        lowerCase first = c.mnemonic ∧ List.Forall₂ HasKind words c.kinds := by
      obtain ⟨first', words', split', rest⟩ := h
      rw [split] at split'
      cases split'
      exact rest
    by_cases mnemonic : Mnemonic first
    · have known := spellsMnemonic_iff.mpr mnemonic
      simp only [known, Bool.not_true, Bool.false_eq_true, if_false]
      have unended : ∀ w ∈ words, Unended w := fun w hw =>
        unended_word text (split ▸ List.mem_cons_of_mem _ hw)
      rcases readOperands_cases text words unended with
        ⟨operands, read, are⟩ | ⟨what, read, bad⟩ | ⟨e, read, w, hw, long⟩
      · simp only [read, bind, Except.bind]
        split
        · next c form =>
          obtain ⟨spelled, kinds⟩ := Opcode.of_withForm? form
          exact .inl ⟨c, operands, rfl, first, words, split, spelled.symm, are, kinds.symm⟩
        · next form =>
          refine .inr (.inl ⟨_, rfl, ?_⟩)
          intro c spells
          obtain ⟨spelled, has⟩ := spelled_split spells
          exact Opcode.withForm?_eq_none form c
            ⟨spelled.symm, HasKind.all_unique has (Reads.haveKinds are)⟩
      · refine .inr (.inl ⟨what, by simp only [read, bind, Except.bind], ?_⟩)
        intro c spells
        exact bad _ (spelled_split spells).2
      · exact .inr
          (.inr ⟨e, by simp only [read, bind, Except.bind], w, List.mem_cons_of_mem _ hw, long⟩)
    · have unknown : ∀ c, ¬ Spells text c := fun c spells => mnemonic ⟨c, (spelled_split spells).1⟩
      have unspelled : Statement.spellsMnemonic first = false := by
        rw [← Bool.not_eq_true, spellsMnemonic_iff]
        exact mnemonic
      simp only [unspelled, Bool.not_false, if_true]
      split
      · exact .inr (.inl ⟨_, rfl, unknown⟩)
      · exact .inr (.inl ⟨_, rfl, unknown⟩)

end Grammar

end BusMachine
