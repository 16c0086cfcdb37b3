import BusMachine.Proofs.Assembly.Layout

/-!
What of a source text matters. Comments, blank lines, blanks between words and the letter case of
mnemonics and registers change neither the executable nor the kind of failure: two texts that differ
in nothing else are read side by side, and what has been read of one is at every statement like what
has been read of the other.
-/
namespace BusMachine

open Text Grammar

/-- Both succeed with related values, or both fail with related errors. -/
inductive Agree {ε α : Type} (E : ε → ε → Prop) (R : α → α → Prop) :
    Except ε α → Except ε α → Prop where
  | ok {a b : α} : R a b → Agree E R (.ok a) (.ok b)
  | error {e f : ε} : E e f → Agree E R (.error e) (.error f)

namespace Agree

variable {ε α β : Type} {E : ε → ε → Prop} {R : α → α → Prop} {S : β → β → Prop} {x y : Except ε α}

theorem map {f g : α → β} (h : Agree E R x y) (next : ∀ a b, R a b → S (f a) (g b)) :
    Agree E S (x.map f) (y.map g) := by
  cases h with
  | ok related => exact .ok (next _ _ related)
  | error related => exact .error related

theorem bind {f g : α → Except ε β} (h : Agree E R x y)
    (next : ∀ a b, R a b → Agree E S (f a) (g b)) :
    Agree E S (x >>= f) (y >>= g) := by
  cases h with
  | ok related => exact next _ _ related
  | error related => exact .error related

theorem mapM {f g : α → Except ε β} (each : ∀ a b, R a b → Agree E S (f a) (g b)) {as bs : List α}
    (h : List.Forall₂ R as bs) : Agree E (List.Forall₂ S) (as.mapM f) (bs.mapM g) := by
  induction h with
  | nil => exact .ok .nil
  | cons first _ ih =>
    simp only [List.mapM_cons]
    refine (each _ _ first).bind ?_
    intro _ _ head
    refine ih.bind ?_
    intro _ _ tail
    exact .ok (.cons head tail)

end Agree

theorem forall₂_span {α β : Type} {R : α → β → Prop} {p : α → Bool} {q : β → Bool}
    (same : ∀ a b, R a b → p a = q b) {as : List α} {bs : List β} (h : List.Forall₂ R as bs) :
    List.Forall₂ (fun a b => R a b ∧ p a = true) (as.takeWhile p) (bs.takeWhile q) ∧
      List.Forall₂ R (as.dropWhile p) (bs.dropWhile q) := by
  induction h with
  | nil => exact ⟨.nil, .nil⟩
  | cons first rest ih =>
    simp only [List.takeWhile_cons, List.dropWhile_cons, ← same _ _ first]
    split
    · next passes => exact ⟨.cons ⟨first, passes⟩ ih.1, ih.2⟩
    · exact ⟨.nil, .cons first rest⟩

namespace Grammar

/-- Words that name the same instruction, or both none. -/
def SameMnemonic (first first' : String) : Prop :=
  ∀ c : Opcode, lowerCase first = c.mnemonic ↔ lowerCase first' = c.mnemonic

/-- Words that are the same, or differ in the letter case of a register's name. -/
inductive SameOperand : String → String → Prop where
  | same (word : String) : SameOperand word word
  | register {name name' : String} : lowerCase name = lowerCase name' →
      SameOperand ("%" ++ name) ("%" ++ name')

/-- As many words, the first of them with the same mnemonic and the others with the same
operands. -/
inductive SameWords : List String → List String → Prop where
  | none : SameWords [] []
  | some {first first' : String} {rest rest' : List String} : SameMnemonic first first' →
      List.Forall₂ SameOperand rest rest' → SameWords (first :: rest) (first' :: rest')

end Grammar

/-- Statements that declare the same label or the same variable, or of which neither has the form of
a declaration and the words are the same up to letter case. -/
inductive Statement.Alike (s s' : Statement) : Prop where
  | label {name : String} : Label s.text name → Label s'.text name → Alike s s'
  | declaration : Declaration s.text → s.text = s'.text → Alike s s'
  | words : (∀ name, ¬ Label s.text name) → (∀ name, ¬ Label s'.text name) → ¬ Declaration s.text →
      ¬ Declaration s'.text → SameWords (wordsOf s.text) (wordsOf s'.text) → Alike s s'

/-- Operands that differ at most in the letter case of a register's name. -/
inductive Operand.Alike : Operand → Operand → Prop where
  | same (o : Operand) : Alike o o
  | register {name name' : String} : lowerCase name = lowerCase name' →
      Alike (.register name) (.register name')

structure Instruction.Alike (i i' : Instruction) : Prop where
  opcode : i.opcode = i'.opcode
  operands : List.Forall₂ Operand.Alike i.operands i'.operands

/-- Both have found some defect, or the same numeral. -/
inductive StatementError.SameKind : StatementError → StatementError → Prop where
  | defect (what what' : Defect) : SameKind (.defect what) (.defect what')
  | numeral (e : NumeralError) : SameKind (.numeral e) (.numeral e)

/-- Errors of one kind. The lines that they quote may be written differently. -/
inductive AssemblyError.SameKind : AssemblyError → AssemblyError → Prop where
  | parse (e e' : ParseError) (es es' : List ParseError) : SameKind (.parse e es) (.parse e' es')
  | undeclared (name : String) (line line' : Int) (text text' : String) :
      SameKind (.link (.undeclared name line text)) (.link (.undeclared name line' text'))
  | unknownRegister (name name' : String) (line line' : Int) (text text' : String) :
      SameKind (.link (.unknownRegister name line text))
        (.link (.unknownRegister name' line' text'))
  | tooLarge (words : Nat) (base : Int) : SameKind (.link (.tooLarge words base))
      (.link (.tooLarge words base))
  | numeral (e : NumeralError) : SameKind (.numeral e) (.numeral e)

namespace Grammar

variable {first first' text text' : String} {rest rest' : List String}

/-- Words of one lower case name the same instruction. Letters outside ASCII are in no mnemonic,
in whatever case. -/
theorem SameMnemonic.of_lowerCase (same : lowerCase first = lowerCase first') :
    SameMnemonic first first' := by
  intro c
  rw [same]

theorem SameMnemonic.mnemonic_iff (h : SameMnemonic first first') :
    Mnemonic first ↔ Mnemonic first' :=
  exists_congr h

theorem SameMnemonic.spellsMnemonic_eq (h : SameMnemonic first first') :
    Statement.spellsMnemonic first = Statement.spellsMnemonic first' := by
  rw [Bool.eq_iff_iff, spellsMnemonic_iff, spellsMnemonic_iff, h.mnemonic_iff]

theorem SameMnemonic.lowerCase_eq (h : SameMnemonic first first') (known : Mnemonic first) :
    lowerCase first = lowerCase first' := by
  obtain ⟨c, spelled⟩ := known
  rw [spelled, (h c).mp spelled]

theorem SameWords.refl (words : List String) : SameWords words words := by
  cases words with
  | nil => exact .none
  | cons first rest => exact .some (.of_lowerCase rfl) (List.forall₂_same.mpr (fun w _ => .same w))

theorem ofWord_register {name : String} (h : Unended ("%" ++ name)) :
    Operand.ofWord ("%" ++ name) =
      .ok (if Statement.isName name.toList then some (.register name) else none) := by
  have body : Statement.withoutFinalNewline ("%" ++ name).toList = '%' :: name.toList :=
    h.same.trans (toList_percent name)
  simp only [Operand.ofWord, body, String.ofList_toList]
  split <;> rfl

theorem SameOperand.ofWord {w w' : String} (h : SameOperand w w') (unended : Unended w)
    (unended' : Unended w') :
    Agree Eq (Option.Rel Operand.Alike) (Operand.ofWord w) (Operand.ofWord w') := by
  cases h with
  | same =>
    cases Operand.ofWord w with
    | error e => exact .error rfl
    | ok o =>
      cases o with
      | none => exact .ok .none
      | some o => exact .ok (.some (.same o))
  | @register name name' same =>
    have lowered : lower name.toList = lower name'.toList := by
      simpa [lowerCase] using congrArg String.toList same
    have named : Statement.isName name.toList = Statement.isName name'.toList := by
      rw [← isName_lower, lowered, isName_lower]
    rw [ofWord_register unended, ofWord_register unended', named]
    split
    · exact .ok (.some (.register same))
    · exact .ok .none

theorem readOperands_alike (text text' : String) (h : List.Forall₂ SameOperand rest rest')
    (unended : ∀ w ∈ rest, Unended w) (unended' : ∀ w ∈ rest', Unended w) :
    Agree StatementError.SameKind (List.Forall₂ Operand.Alike) (Draft.readOperands text rest)
      (Draft.readOperands text' rest') := by
  induction h with
  | nil => exact .ok .nil
  | @cons w w' ws ws' first _ ih =>
    have head :=
      first.ofWord (unended w (List.mem_cons_self ..)) (unended' w' (List.mem_cons_self ..))
    have tail := ih (fun v hv => unended v (List.mem_cons_of_mem w hv))
      (fun v hv => unended' v (List.mem_cons_of_mem w' hv))
    unfold Draft.readOperands
    generalize Operand.ofWord w = o at head
    generalize Operand.ofWord w' = o' at head
    cases head with
    | error same => exact .error (same ▸ .numeral _)
    | ok related =>
      cases related with
      | none => exact .error (.defect _ _)
      | some alike => exact tail.map (fun _ _ rest => .cons alike rest)

theorem kinds_eq {os os' : List Operand} (h : List.Forall₂ Operand.Alike os os') :
    os.map Operand.kind = os'.map Operand.kind := by
  induction h with
  | nil => rfl
  | cons first _ ih =>
    rw [List.map_cons, List.map_cons, ih]
    cases first <;> rfl

/-- Texts with the same words are the same instruction, or fail for reasons of the same kind. -/
theorem SameWords.readInstruction
    (h : SameWords (Statement.wordsOf text) (Statement.wordsOf text')) :
    Agree StatementError.SameKind (fun r r' => r.1 = r'.1 ∧ List.Forall₂ Operand.Alike r.2 r'.2)
      (Draft.readInstruction text) (Draft.readInstruction text') := by
  have unended : ∀ w ∈ Statement.wordsOf text, Unended w := fun _ => unended_word text
  have unended' : ∀ w ∈ Statement.wordsOf text', Unended w := fun _ => unended_word text'
  unfold Draft.readInstruction
  generalize Statement.wordsOf text = ws at h unended
  generalize Statement.wordsOf text' = ws' at h unended'
  cases h with
  | none => exact .error (.defect _ _)
  | @some first first' rest rest' mnemonic operands =>
    have same := mnemonic.spellsMnemonic_eq
    cases known : Statement.spellsMnemonic first with
    | false =>
      simp only [← same, known, Bool.not_false, if_true]
      split <;> split <;> exact .error (.defect _ _)
    | true =>
      have lowered := mnemonic.lowerCase_eq (spellsMnemonic_iff.mp known)
      simp only [← same, known, Bool.not_true, Bool.false_eq_true, if_false, lowered]
      refine (readOperands_alike text text' operands (fun w hw =>
        unended w (List.mem_cons_of_mem _ hw))
        (fun w hw => unended' w (List.mem_cons_of_mem _ hw))).bind ?_
      intro os os' alike
      simp only [kinds_eq alike]
      split
      · exact .ok ⟨rfl, alike⟩
      · exact .error (.defect _ _)

end Grammar

namespace Statement.Alike

variable {s s' : Statement}

theorem label_or_words (h : s.Alike s') :
    (∃ name, Label s.text name ∧ Label s'.text name) ∨
      ((∀ name, ¬ Label s.text name) ∧ (∀ name, ¬ Label s'.text name) ∧
        SameWords (wordsOf s.text) (wordsOf s'.text)) := by
  cases h with
  | label label label' => exact .inl ⟨_, label, label'⟩
  | declaration declares same =>
    have unlabelled : ∀ name, ¬ Label s.text name := fun _ label => label.not_declaration declares
    exact .inr ⟨unlabelled, same ▸ unlabelled, same ▸ .refl _⟩
  | words unlabelled unlabelled' _ _ words => exact .inr ⟨unlabelled, unlabelled', words⟩

theorem declaration_iff (h : s.Alike s') : Declaration s.text ↔ Declaration s'.text := by
  cases h with
  | label label label' => exact iff_of_false label.not_declaration label'.not_declaration
  | declaration _ same => rw [same]
  | words _ _ other other' _ => exact iff_of_false other other'

theorem text_eq (h : s.Alike s') (declares : Declaration s.text) : s.text = s'.text := by
  cases h with
  | label label _ => exact absurd declares label.not_declaration
  | declaration _ same => exact same
  | words _ _ other _ _ => exact absurd declares other

end Statement.Alike

/-- Alike statements of two scanned texts. -/
structure Statement.ScannedAlike (s s' : Statement) : Prop where
  left : Unended s.text
  right : Unended s'.text
  alike : s.Alike s'

/-- Drafts of alike texts. Errors show the lines as they are written, so only their number
is compared. -/
structure Draft.Alike (d d' : Draft) : Prop where
  names : d.declarations.map Prod.fst = d'.declarations.map Prod.fst
  labels : d.labels = d'.labels
  instructions : List.Forall₂ Instruction.Alike d.instructions d'.instructions
  length : d.length = d'.length
  errors : d.errors.length = d'.errors.length

namespace Draft

variable {d d' : Draft} {s s' : Statement} {ss ss' : List Statement}

theorem alike_empty : Alike {} {} := ⟨rfl, rfl, .nil, rfl, rfl⟩

theorem Alike.isDeclared (h : d.Alike d') (name : String) :
    d.isDeclared name = d'.isDeclared name := by
  have by_names (d : Draft) : d.isDeclared name =
    (d.declarations.map Prod.fst).any (· == name) := by
    simp [Draft.isDeclared, List.any_map, Function.comp_def]
  rw [by_names, by_names, h.names]

theorem Alike.note (h : d.Alike d') (s s' : Statement) (what what' : Defect) :
    (d.note s what).Alike (d'.note s' what') :=
  { h with errors := by simp [Draft.note, h.errors] }

theorem Alike.declare (h : d.Alike d') (same : s.text = s'.text) :
    (d.declare s).Alike (d'.declare s') := by
  unfold Draft.declare
  rw [h.isDeclared, same]
  split
  · exact h.note ..
  · exact { h with names := by simp [h.names] }

theorem Alike.addLabel (h : d.Alike d') (s s' : Statement) (name : String) :
    (d.addLabel s name).Alike (d'.addLabel s' name) := by
  unfold Draft.addLabel isLabel
  rw [h.isDeclared, h.labels]
  split
  · exact h.note ..
  · split
    · exact h.note ..
    · exact { h with labels := by rw [h.length] }

theorem Alike.addInstruction (h : d.Alike d')
    (words : SameWords (Statement.wordsOf s.text) (Statement.wordsOf s'.text)) :
    Agree Eq Alike (d.addInstruction s) (d'.addInstruction s') := by
  have read := words.readInstruction
  unfold Draft.addInstruction
  generalize readInstruction s.text = r at read
  generalize readInstruction s'.text = r' at read
  cases read with
  | @ok a b parsed =>
    have size : a.2.length = b.2.length := parsed.2.length_eq
    exact .ok { h with
      instructions := List.rel_append h.instructions (.cons ⟨parsed.1, parsed.2⟩ .nil)
      length := by simp [Instruction.size, h.length, size] }
  | error kind =>
    cases kind with
    | defect what what' => exact .ok (h.note s s' what what')
    | numeral e => exact .error rfl

theorem Alike.add (h : d.Alike d') (scanned : s.ScannedAlike s') :
    Agree Eq Alike (d.add s) (d'.add s') := by
  unfold Draft.add
  rcases scanned.alike.label_or_words with ⟨name, label, label'⟩ | ⟨unlabelled, unlabelled', words⟩
  · rw [(label?_eq_some_iff scanned.left).mpr label, (label?_eq_some_iff scanned.right).mpr label']
    exact .ok (h.addLabel s s' name)
  · rw [(label?_eq_none_iff scanned.left).mpr unlabelled,
      (label?_eq_none_iff scanned.right).mpr unlabelled']
    exact h.addInstruction words

theorem Alike.addAll (h : d.Alike d') (scanned : List.Forall₂ Statement.ScannedAlike ss ss') :
    (d.addAll ss).1.Alike (d'.addAll ss').1 ∧ (d.addAll ss).2 = (d'.addAll ss').2 := by
  induction scanned generalizing d d' with
  | nil => exact ⟨h, rfl⟩
  | @cons s s' _ _ first _ ih =>
    have added := h.add first
    unfold Draft.addAll
    generalize d.add s = r at added
    generalize d'.add s' = r' at added
    cases added with
    | ok next => exact ih next
    | error same => exact ⟨h, congrArg some same⟩

/-- The declarations in front end at the same statement, and all statements are read alike. -/
theorem ofStatements_alike (scanned : List.Forall₂ Statement.ScannedAlike ss ss') :
    (ofStatements ss).1.Alike (ofStatements ss').1 ∧
      (ofStatements ss).2 = (ofStatements ss').2 := by
  have declares (s s' : Statement) (h : s.ScannedAlike s') :
      Statement.declaresVariable s.text = Statement.declaresVariable s'.text := by
    rw [Bool.eq_iff_iff, declaresVariable_iff h.left, declaresVariable_iff h.right,
      h.alike.declaration_iff]
  obtain ⟨front, body⟩ := forall₂_span declares scanned
  refine Alike.addAll (List.rel_foldl ?_ alike_empty front) body
  intro d d' h s s' declared
  have declaration : Declaration s.text := (declaresVariable_iff declared.1.left).mp declared.2
  exact h.declare (declared.1.alike.text_eq declaration)

theorem ofSource_alike {source source' : String}
    (alike : List.Forall₂ Statement.Alike (Statement.ofSource source)
      (Statement.ofSource source')) :
    (ofSource source).1.Alike (ofSource source').1 ∧
      (ofSource source).2 = (ofSource source').2 := by
  apply ofStatements_alike
  have left : List.Forall₂ (fun s s' => Unended s.text ∧ s.Alike s') (Statement.ofSource source)
      (Statement.ofSource source') :=
    (List.forall₂_and_left _ _).mpr ⟨fun _ => Statement.unended_ofSource, alike⟩
  have both : List.Forall₂ (fun s' s => Unended s'.text ∧ Unended s.text ∧ s.Alike s')
      (Statement.ofSource source') (Statement.ofSource source) :=
    (List.forall₂_and_left _ _).mpr ⟨fun _ => Statement.unended_ofSource, left.flip⟩
  exact both.flip.imp (fun _ _ h => ⟨h.2.1, h.1, h.2.2⟩)

end Draft

namespace ObjectProgram

/-- Programs that are linked to the same words. -/
structure Alike (p p' : ObjectProgram) : Prop where
  names : p.variableNames = p'.variableNames
  labels : p.labels = p'.labels
  instructions : List.Forall₂ Instruction.Alike p.instructions p'.instructions

variable {p p' : ObjectProgram}

theorem resolve_alike (symbols : SymbolTable) (i i' : Instruction) {o o' : Operand}
    (h : o.Alike o') :
    Agree AssemblyError.SameKind Eq (resolve symbols i o) (resolve symbols i' o') := by
  cases h with
  | same o =>
    unfold resolve
    split <;> split
    · exact .ok rfl
    · exact .error (.undeclared ..)
    · exact .ok rfl
    · exact .error (.unknownRegister ..)
    · exact .ok rfl
    · exact .error (.numeral _)
  | @register name name' same =>
    have found : Register.named? name = Register.named? name' := by
      rw [← Register.named?_lowerCase, same, Register.named?_lowerCase]
    simp only [resolve, found]
    split
    · exact .ok rfl
    · exact .error (.unknownRegister ..)

theorem encode_alike (symbols : SymbolTable) {i i' : Instruction} (h : i.Alike i') :
    Agree AssemblyError.SameKind Eq (encode symbols i) (encode symbols i') := by
  unfold encode
  rw [h.opcode]
  refine (Agree.mapM (fun _ _ alike => resolve_alike symbols i i' alike) h.operands).bind ?_
  intro words words' same
  rw [List.forall₂_eq_eq_eq] at same
  rw [same]
  exact .ok rfl

theorem Alike.link (h : p.Alike p') (size : Int) :
    Agree AssemblyError.SameKind Eq (p.link size) (p'.link size) := by
  have base : p.variableBase size = p'.variableBase size := by simp only [variableBase, h.names]
  have symbols : p.symbols size = p'.symbols size := by
    simp only [ObjectProgram.symbols, labelAddresses, variableAddresses, h.labels, h.names]
  unfold ObjectProgram.link
  rw [base, symbols]
  refine (Agree.mapM (fun _ _ alike => encode_alike (p'.symbols size) alike) h.instructions).bind ?_
  intro codes codes' same
  rw [List.forall₂_eq_eq_eq] at same
  rw [same]
  dsimp only
  split
  · exact .ok rfl
  · split
    · exact .error (.tooLarge ..)
    · exact .error (.numeral _)

end ObjectProgram

theorem Draft.Alike.finish {d d' : Draft} (h : d.Alike d') :
    Agree AssemblyError.SameKind ObjectProgram.Alike d.finish d'.finish := by
  have errors := h.errors
  unfold Draft.finish
  cases found : d.errors with
  | nil =>
    have clean : d'.errors = [] := List.length_eq_zero_iff.mp (errors ▸ congrArg List.length found)
    rw [clean]
    exact .ok ⟨h.names, h.labels, h.instructions⟩
  | cons e es =>
    cases found' : d'.errors with
    | nil => simp [found, found'] at errors
    | cons e' es' => exact .error (.parse ..)

namespace Assembler

theorem assemble_eq (a : Assembler) (source : String) :
    (a.assemble source).2 = (a.parse source).2 >>= (fun p => p.link a.memorySize) := by
  have kept := a.parse_memorySize source
  unfold assemble
  rcases parsed : a.parse source with ⟨b, e | p⟩
  · rfl
  · rw [parsed] at kept
    simp only [install, Assembler.link]
    have kept : b.memorySize = a.memorySize := kept
    rw [kept]
    cases linked : p.link a.memorySize <;> simp [bind, Except.bind, linked]

theorem parse_alike (a a' : Assembler) {source source' : String}
    (alike : List.Forall₂ Statement.Alike (Statement.ofSource source)
      (Statement.ofSource source')) :
    Agree AssemblyError.SameKind ObjectProgram.Alike (a.parse source).2 (a'.parse source').2 := by
  have read := Draft.ofSource_alike alike
  unfold parse
  generalize Draft.ofSource source = r at read
  generalize Draft.ofSource source' = r' at read
  obtain ⟨d, stopped⟩ := r
  obtain ⟨d', stopped'⟩ := r'
  obtain ⟨drafts, rfl⟩ : d.Alike d' ∧ stopped = stopped' := read
  cases stopped with
  | none => exact drafts.finish
  | some e => exact .error (.numeral e)

/-- Texts with the same tokens, up to the letter case of mnemonics and registers, are assembled to
the same words for a memory of one size, or both fail with errors of the same kind. -/
theorem assembly_depends_on_tokens {a a' : Assembler} (size : a.memorySize = a'.memorySize)
    {source source' : String}
    (alike : List.Forall₂ Statement.Alike (Statement.ofSource source)
      (Statement.ofSource source')) :
    (∃ words, (a.assemble source).2 = .ok words ∧ (a'.assemble source').2 = .ok words) ∨
      ∃ e e', (a.assemble source).2 = .error e ∧ (a'.assemble source').2 = .error e' ∧
        e.SameKind e' := by
  have agree : Agree AssemblyError.SameKind Eq (a.assemble source).2 (a'.assemble source').2 := by
    rw [assemble_eq, assemble_eq, size]
    exact (parse_alike a a' alike).bind (fun _ _ programs => programs.link a'.memorySize)
  generalize (a.assemble source).2 = r at agree
  generalize (a'.assemble source').2 = r' at agree
  cases agree with
  | ok same => exact .inl ⟨_, rfl, same ▸ rfl⟩
  | error kind => exact .inr ⟨_, _, rfl, rfl, kind⟩

def counts : String := "n\nloop:\nINC %Reg0"

/-- The same tokens, written differently. -/
def countsSpaced : String := "n ; of rounds\n\n  loop :\ninc\t%REG0"

theorem counts_alike :
    List.Forall₂ Statement.Alike (Statement.ofSource counts) (Statement.ofSource countsSpaced) := by
  have scanned : Statement.ofSource counts =
      [⟨1, "n", "n"⟩, ⟨2, "loop:", "loop:"⟩, ⟨3, "INC %Reg0", "INC %Reg0"⟩] := by decide +kernel
  have scanned' : Statement.ofSource countsSpaced =
      [⟨1, "n ; of rounds", "n"⟩, ⟨3, "  loop :", "loop :"⟩, ⟨4, "inc\t%REG0", "inc\t%REG0"⟩] := by
        decide +kernel
  rw [scanned, scanned']
  refine .cons ?_ (.cons ?_ (.cons ?_ .nil))
  · exact .declaration ((declaresVariable_iff (by decide)).mp (by decide)) rfl
  · have label : Label "loop:" "loop" := (label?_eq_some_iff (by decide)).mp (by decide)
    exact .label label ((label?_eq_some_iff (by decide)).mp (by decide))
  · have operand : SameOperand ("%" ++ "Reg0") ("%" ++ "REG0") := .register (by decide)
    have words : SameWords ["INC", "%Reg0"] ["inc", "%REG0"] :=
      .some (.of_lowerCase (by decide)) (.cons operand .nil)
    refine .words ?_ ?_ ?_ ?_ words
    · exact (label?_eq_none_iff (by decide)).mp (by decide)
    · exact (label?_eq_none_iff (by decide)).mp (by decide)
    · exact (declaresVariable_iff (by decide)).not.mp (by decide)
    · exact (declaresVariable_iff (by decide)).not.mp (by decide)

theorem counts_assembled_alike :
    List.Forall₂ Statement.Alike (Statement.ofSource counts) (Statement.ofSource countsSpaced) ∧
      ((ofSize 16).assemble counts).2 = .ok [9, 15, 7, 9, 15, 6, 10, 1, -1] ∧
      ((ofSize 16).assemble countsSpaced).2 = .ok [9, 15, 7, 9, 15, 6, 10, 1, -1] := by
  have assembled : ((ofSize 16).assemble counts).2 = .ok [9, 15, 7, 9, 15, 6, 10, 1, -1] := by
    decide +kernel
  refine ⟨counts_alike, assembled, ?_⟩
  have same : (ofSize 16).memorySize = (ofSize 16).memorySize := rfl
  rcases assembly_depends_on_tokens same counts_alike with ⟨words, left, right⟩ | ⟨e, e', left, -⟩
  · rw [assembled] at left
    cases left
    exact right
  · rw [assembled] at left
    cases left

end Assembler

end BusMachine
