import BusMachine.Proofs.Assembly.Recording
import BusMachine.Proofs.Assembly.RegisterNames
import BusMachine.Proofs.Assembly.Linking

/-!
The layout of an executable in terms of its source text: which words stand for which statement,
where they begin, and which number every operand becomes.
-/
namespace BusMachine

open Text Grammar

theorem forall₂_comp {α β γ : Type} {R : α → β → Prop} {S : β → γ → Prop} {T : α → γ → Prop}
    (comp : ∀ a b c, R a b → S b c → T a c) {xs : List α} {ys : List β} {zs : List γ}
    (h : List.Forall₂ R xs ys) (h' : List.Forall₂ S ys zs) : List.Forall₂ T xs zs := by
  induction h generalizing zs with
  | nil =>
    cases h'
    exact .nil
  | cons first _ ih =>
    cases h' with
    | cons first' rest => exact .cons (comp _ _ _ first first') (ih rest)

namespace Grammar

variable {declarations body : List Statement}

theorem declarations_nodup (good : ∀ s, ¬ Bad declarations body s) :
    (declarations.map Statement.text).Nodup := by
  -- Two declarations of one name would make the later one bad.
  have apart : declarations.Pairwise (fun e s => e.text ≠ s.text) := by
    rw [List.pairwise_iff_forall_sublist]
    intro e s pair same
    obtain ⟨before, rest, rfl, first, second⟩ := List.cons_sublist_iff.mp pair
    obtain ⟨middle, after, rfl⟩ := List.append_of_mem (List.singleton_sublist.mp second)
    have split : before ++ (middle ++ s :: after) = (before ++ middle) ++ s :: after := by
      rw [List.append_assoc]
    exact good s (.declaredAgain split (List.mem_append_left _ first) same)
  exact List.pairwise_map.mpr apart

theorem labels_unique (good : ∀ s, ¬ Bad declarations body s) {l l' : Statement} {name : String}
    (hl : l ∈ body) (hl' : l' ∈ body) (label : Label l.text name) (label' : Label l'.text name) :
    l = l' := by
  obtain ⟨before, after, split⟩ := List.append_of_mem hl
  rw [split] at hl'
  rcases List.mem_append.mp hl' with earlier | later
  · exact absurd (.repeatedLabel split label earlier label') (good l)
  · rcases List.mem_cons.mp later with same | later
    · exact same.symm
    · obtain ⟨middle, rest, rfl⟩ := List.append_of_mem later
      have split' : body = (before ++ l :: middle) ++ l' :: rest := by
        rw [split, List.append_assoc, List.cons_append]
      have earlier : l ∈ before ++ l :: middle := List.mem_append_right _ (List.mem_cons_self ..)
      exact absurd (.repeatedLabel split' label' earlier label) (good l')

theorem labels_undeclared (good : ∀ s, ¬ Bad declarations body s) {l s : Statement} {name : String}
    (hl : l ∈ body) (label : Label l.text name) (hs : s ∈ declarations) : s.text ≠ name :=
  fun same => good l (.declaredLabel hl label hs same)

end Grammar

namespace Assembler

variable {source : String}

theorem parse_ok {a : Assembler} {p : ObjectProgram} (h : (a.parse source).2 = .ok p) :
    ∃ d, Draft.ofSource source = (d, none) ∧ d.errors = [] ∧ p = d.program := by
  rw [parse] at h
  rcases draft : Draft.ofSource source with ⟨d, _ | e⟩
  · rw [draft] at h
    simp only [Draft.finish] at h
    split at h
    · next clean => exact ⟨d, rfl, clean, (Except.ok.inj h).symm⟩
    · cases h
  · rw [draft] at h
    cases h

theorem parse_memorySize (a : Assembler) (source : String) :
    (a.parse source).1.memorySize = a.memorySize := by
  rw [parse]
  rcases Draft.ofSource source with ⟨d, _ | e⟩ <;> rfl

theorem assemble_ok {a : Assembler} {words : List Int} (h : (a.assemble source).2 = .ok words) :
    ∃ p, (a.parse source).2 = .ok p ∧ p.link a.memorySize = .ok words ∧
      (a.assemble source).1.program = some p := by
  rw [assemble] at h ⊢
  have kept := a.parse_memorySize source
  rcases parsed : a.parse source with ⟨b, e | p⟩
  · rw [parsed] at h
    cases h
  · rw [parsed] at h kept
    have kept : b.memorySize = a.memorySize := kept
    simp only [install, link, kept] at h ⊢
    cases linked : p.link a.memorySize with
    | ok words' =>
      rw [linked] at h
      exact ⟨p, rfl, linked.trans h, rfl⟩
    | error e =>
      rw [linked] at h
      cases h

end Assembler

/-- The number that an operand of the source becomes. Of the instructions behind a label the first
gives it its address; if there is none, the halt word does. -/
inductive Denotes (size : Int) (words : List Int) (declarations body : List Statement)
    (is : List Instruction) : String → Int → Prop where
  | register {name : String} {r : Register} : lowerCase name = r.lowerName →
      Denotes size words declarations body is ("%" ++ name) r.id
  | immediate {word : String} {n : Int} : Decimal word.toList n →
      Denotes size words declarations body is word n
  | declared {k : Nat} {s : Statement} : declarations[k]? = some s →
      Denotes size words declarations body is s.text (size - 1 - k)
  | label {l : Statement} {name : String} {before after : List Instruction} {i : Instruction} :
      l ∈ body → Label l.text name → is = before ++ i :: after → (∀ j ∈ before, j.line < l.line) →
      l.line < i.line → Denotes size words declarations body is name (6 + i.offset)
  | lastLabel {l : Statement} {name : String} :
      l ∈ body → Label l.text name → (∀ j ∈ is, j.line < l.line) →
      Denotes size words declarations body is name (words.length - 1)

/-- The words that a statement becomes: the id of its instruction, and the numbers of its
operands. -/
def Statement.Becomes (s : Statement) (denotes : String → Int → Prop) (code : List Int) : Prop :=
  ∃ (c : Opcode) (first : String) (operands : List String) (values : List Int),
    Statement.wordsOf s.text = first :: operands ∧ lowerCase first = c.mnemonic ∧
    List.Forall₂ HasKind operands c.kinds ∧ code = (c.id : Int) :: values ∧
      List.Forall₂ denotes operands values

/-- How the words of an executable lie in a memory of that size. The text falls into
declarations and a body, `steps` are the statements of the body that are no labels, and `codes`
the words of each of them. -/
structure Layout (source : String) (size : Int) (words : List Int)
    (declarations body steps : List Statement) (p : ObjectProgram)
    (codes : List (List Int)) : Prop where
  statements : Statements source (declarations ++ body)
  divides : Divides declarations body
  sublist : steps.Sublist body
  unlabelled : ∀ s, s ∈ steps ↔ s ∈ body ∧ ∀ name, ¬ Label s.text name
  parsed : ∀ a : Assembler, (a.parse source).2 = .ok p
  names : p.variableNames = declarations.map Statement.text
  instructions : List.Forall₂ Statement.Yields steps p.instructions
  words_eq : words =
    [9, size - declarations.length, 7, 9, size - declarations.length, 6] ++ codes.flatten ++ [-1]
  fits : words.length ≤ size - declarations.length
  becomes : List.Forall₂
    (fun s code => s.Becomes (Denotes size words declarations body p.instructions) code) steps codes
  offsets : ∀ (before : List Instruction) (i : Instruction) (after : List Instruction),
    p.instructions = before ++ i :: after → i.offset = (wordCount before : Int)
  placed : ∀ (j : Nat) (i : Instruction) (code : List Int), p.instructions[j]? = some i →
    codes[j]? = some code →
    ∃ before after, words = before ++ code ++ after ∧ (before.length : Int) = 6 + i.offset
  names_nodup : (declarations.map Statement.text).Nodup
  labels_unique : ∀ l ∈ body, ∀ l' ∈ body, ∀ name, Label l.text name → Label l'.text name → l = l'
  labels_undeclared : ∀ l ∈ body, ∀ name, Label l.text name → ∀ s ∈ declarations, s.text ≠ name
  addresses : p.variableAddresses size =
    declarations.zipIdx.map (fun e => (e.1.text, size - 1 - (e.2 : Int)))
  addresses_nodup : ((p.variableAddresses size).map Prod.snd).Nodup
  addresses_above : ∀ e ∈ p.variableAddresses size,
    size - declarations.length ≤ e.2 ∧ e.2 < size ∧ words.length ≤ e.2

namespace ObjectProgram

variable {p : ObjectProgram} {size : Int}

theorem denotes_of_resolves {d : Draft} {declarations body steps : List Statement}
    {words : List Int} (records : d.Records declarations body steps)
    (stop : (words.length : Int) - 1 = 6 + wordCount d.instructions) {word : String} {o : Operand}
    {v : Int} (reads : Reads word o) (resolves : d.program.Resolves size o v) :
    Denotes size words declarations body d.instructions word v := by
  cases reads with
  | register identifier =>
    cases resolves with
    | register found => exact .register (Register.lowerName_of_named? identifier found)
  | literal decimal =>
    cases resolves with
    | literal read =>
      rw [(decimal_toString _).eq_of_read read]
      exact .immediate decimal
  | symbol identifier =>
    cases resolves with
    | @declared _ k named =>
      have at_k : (d.declarations.map Prod.fst)[k]? = some word := named
      rw [records.names, List.getElem?_map, Option.map_eq_some_iff] at at_k
      obtain ⟨s, hs, rfl⟩ := at_k
      exact .declared hs
    | @label _ offset mem =>
      obtain ⟨l, hl, label, before, after, split, sum, lt, gt⟩ := records.labels _ _ mem
      cases after with
      | nil =>
        rw [List.append_nil] at split
        -- No instruction follows the label, and it gets the address of the halt word.
        have value : (words.length : Int) - 1 = offset + prologueLength := by
          rw [stop, split, ← sum, Int.add_comm, prologueLength_eq]
          rfl
        exact value ▸ .lastLabel hl label (fun j hj => lt j (split ▸ hj))
      | cons i after =>
        have value : 6 + i.offset = offset + prologueLength := by
          rw [records.offsets before i after split, ← sum, Int.add_comm, prologueLength_eq]
          rfl
        exact value ▸ .label hl label split lt (gt i (List.mem_cons_self ..))

theorem code_placed {codes : List (List Int)} {words before after : List Int}
    (encoded : List.Forall₂ (p.Encodes size) p.instructions codes)
    (split : words = before ++ codes.flatten ++ after) {j : Nat} {code : List Int}
    (at_j : codes[j]? = some code) :
    ∃ front back, words = front ++ code ++ back ∧
      front.length = before.length + wordCount (p.instructions.take j) := by
  obtain ⟨bound, rfl⟩ := List.getElem?_eq_some_iff.mp at_j
  refine ⟨before ++ (codes.take j).flatten, (codes.drop (j + 1)).flatten ++ after, ?_, ?_⟩
  · have parts : codes = codes.take j ++ codes[j] :: codes.drop (j + 1) := by
      rw [List.getElem_cons_drop, List.take_append_drop]
    have flat := congrArg List.flatten parts
    rw [List.flatten_append, List.flatten_cons] at flat
    rw [split, flat]
    simp only [List.append_assoc]
  · rw [List.length_append, encodes_length (List.forall₂_take j encoded)]

theorem addresses_nodup (declarations : List Statement) (size : Int) :
    ((declarations.zipIdx.map (fun e => (e.1.text, size - 1 - (e.2 : Int)))).map
      Prod.snd).Nodup := by
  have positions : (declarations.zipIdx.map (fun e => (e.1.text, size - 1 - (e.2 : Int)))).map
    Prod.snd =
      (List.range' 0 declarations.length).map (fun k : Nat => size - 1 - (k : Int)) := by
    rw [← List.zipIdx_map_snd, List.map_map, List.map_map]
    rfl
  rw [positions]
  exact List.Pairwise.map _ (fun _ _ apart same => apart (by omega)) List.nodup_range'

end ObjectProgram

theorem layout_of_link {source : String} {size : Int} {words : List Int} {d : Draft}
    (finished : Draft.ofSource source = (d, none)) (clean : d.errors = [])
    (linked : d.program.link size = .ok words) :
    ∃ declarations body steps codes,
      Layout source size words declarations body steps d.program codes := by
  obtain ⟨steps, records⟩ := Draft.records_ofSource finished clean
  have good := (Draft.reflects_ofSource finished).clean_iff.mp clean
  obtain ⟨codes, split, encoded, fits⟩ := ObjectProgram.link_ok linked
  have names : d.program.variableNames = (Draft.divided source).1.map Statement.text :=
    records.names
  have base : d.program.variableBase size = size - (Draft.divided source).1.length := by
    rw [ObjectProgram.variableBase, names, List.length_map]
  have stop : (words.length : Int) - 1 = 6 + wordCount d.instructions := by
    have length : words.length = 6 + wordCount d.instructions + 1 :=
      ObjectProgram.words_length encoded split
    omega
  have denotes : ∀ word o v, Reads word o → d.program.Resolves size o v →
      Denotes size words (Draft.divided source).1 (Draft.divided source).2 d.program.instructions
        word v :=
    fun _ _ _ => ObjectProgram.denotes_of_resolves records stop
  have nodup := declarations_nodup good
  have addresses : d.program.variableAddresses size =
      (Draft.divided source).1.zipIdx.map (fun e => (e.1.text, size - 1 - (e.2 : Int))) := by
    rw [ObjectProgram.variableAddresses_eq (names ▸ nodup), names, List.zipIdx_map, List.map_map]
    rfl
  refine ⟨(Draft.divided source).1, (Draft.divided source).2, steps, codes, ?_⟩
  exact {
    statements := (Draft.divided_append source).symm ▸ Statement.statements_ofSource source
    divides := Draft.divides source
    sublist := records.sublist
    unlabelled := records.unlabelled
    parsed := fun a => by
      rw [a.parse_of_ofSource finished, Draft.finish, clean]
    names := names
    instructions := records.instructions
    words_eq := by
      rw [split, ObjectProgram.prologue, base]
      rfl
    fits := base ▸ fits
    becomes := forall₂_comp (fun s i code yields encodes => by
      obtain ⟨-, first, operands, spelled, mnemonic, reads, kinds⟩ := yields
      obtain ⟨values, rfl, resolved⟩ := encodes
      exact ⟨i.opcode, first, operands, values, spelled, mnemonic, kinds ▸ Reads.haveKinds reads,
        rfl,
        forall₂_comp denotes reads resolved⟩)
      records.instructions encoded
    offsets := records.offsets
    placed := fun j i code at_i at_j => by
      obtain ⟨front, back, parts, length⟩ := ObjectProgram.code_placed encoded split at_j
      refine ⟨front, back, parts, ?_⟩
      obtain ⟨bound, eq⟩ := List.getElem?_eq_some_iff.mp at_i
      have parts := List.take_append_drop j d.program.instructions
      rw [List.drop_eq_getElem_cons bound, eq] at parts
      rw [records.offsets _ i _ parts.symm, length]
      rfl
    names_nodup := nodup
    labels_unique := fun l hl l' hl' name => labels_unique good hl hl'
    labels_undeclared := fun l hl name label s hs => labels_undeclared good hl label hs
    addresses := addresses
    addresses_nodup := addresses ▸ ObjectProgram.addresses_nodup _ size
    addresses_above := fun e he => by
      rw [addresses] at he
      obtain ⟨⟨s, k⟩, hk, rfl⟩ := List.mem_map.mp he
      have bound := (List.mem_zipIdx hk).2.1
      rw [base] at fits
      simp only
      omega }

namespace Assembler

/-- Every executable is laid out by its source text. -/
theorem assemble_layout (a : Assembler) {source : String} {words : List Int}
    (h : (a.assemble source).2 = .ok words) :
    ∃ declarations body steps p codes, (a.assemble source).1.program = some p ∧
      Layout source a.memorySize words declarations body steps p codes := by
  obtain ⟨p, parsed, linked, kept⟩ := assemble_ok h
  obtain ⟨d, finished, clean, rfl⟩ := parse_ok parsed
  obtain ⟨declarations, body, steps, codes, layout⟩ := layout_of_link finished clean linked
  exact ⟨declarations, body, steps, d.program, codes, kept, layout⟩

def countsDown : String :=
  "n\nstep ; of the count\nmove n %reg0\nloop: \nsub %Reg0 step\nJZ end\njmp loop\nend :"

theorem assemble_layout_countsDown :
    ((ofSize 64).assemble countsDown).2 =
        .ok [9, 62, 7, 9, 62, 6, 6, 63, 1, 5, 1, 62, 14, 16, 12, 9, -1] ∧
      ∃ declarations body steps p codes,
        ((ofSize 64).assemble countsDown).1.program = some p ∧
          Layout countsDown 64 [9, 62, 7, 9, 62, 6, 6, 63, 1, 5, 1, 62, 14, 16, 12, 9, -1]
            declarations body steps p codes :=
  have assembled : ((ofSize 64).assemble countsDown).2 =
      .ok [9, 62, 7, 9, 62, 6, 6, 63, 1, 5, 1, 62, 14, 16, 12, 9, -1] := by decide +kernel
  ⟨assembled, assemble_layout (ofSize 64) assembled⟩

end Assembler

end BusMachine
