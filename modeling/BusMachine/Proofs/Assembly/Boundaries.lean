import BusMachine.Proofs.Assembly.Layout

/-!
The addresses at which control may stand in an assembled program: where an instruction begins, and
the halt word at the end. Every label is one of them, and so is what follows an instruction.
-/
namespace BusMachine

open Grammar

theorem forall₂_getLast? {α β : Type} {R : α → β → Prop} {xs : List α} {ys : List β} {y : β}
    (h : List.Forall₂ R xs ys) (last : ys.getLast? = some y) :
    ∃ x, xs.getLast? = some x ∧ R x y := by
  induction h with
  | nil => cases last
  | @cons x _ xs _ first rest ih =>
    cases rest with
    | nil =>
      cases last
      exact ⟨x, rfl, first⟩
    | cons second rest =>
      rw [List.getLast?_cons_cons] at last ⊢
      exact ih last

namespace ObjectProgram

/-- Where an instruction begins, or the words of the program end. -/
def Boundary (p : ObjectProgram) (a : Int) : Prop :=
  ∃ before after, p.instructions = before ++ after ∧ a = 6 + wordCount before

/-- A program whose operands have their kinds, with the words it is linked to. -/
structure Assembled (p : ObjectProgram) (size : Int) (words : List Int) (codes : List (List Int)) :
    Prop where
  split : words = prologue (p.variableBase size) ++ codes.flatten ++ [haltWord]
  encoded : List.Forall₂ (p.Encodes size) p.instructions codes
  fits : words.length ≤ p.variableBase size
  kinds : ∀ i ∈ p.instructions, i.operands.map Operand.kind = i.opcode.kinds
  offsets : ∀ (before : List Instruction) (i : Instruction) (after : List Instruction),
    p.instructions = before ++ i :: after → i.offset = (wordCount before : Int)
  labels : ∀ name offset, (name, offset) ∈ p.labels →
    name ∉ p.variableNames ∧ p.Boundary (offset + prologueLength)

theorem undeclared_of_records {d : Draft} {declarations body steps : List Statement}
    (records : d.Records declarations body steps) (good : ∀ s, ¬ Bad declarations body s)
    {l : Statement} (hl : l ∈ body) {name : String} (label : Label l.text name) :
    name ∉ d.program.variableNames := by
  intro declared
  have declared : name ∈ d.declarations.map Prod.fst := declared
  rw [records.names] at declared
  obtain ⟨s, hs, same⟩ := List.mem_map.mp declared
  exact labels_undeclared good hl label hs same

theorem assembled_of_link {source : String} {size : Int} {words : List Int} {d : Draft}
    (finished : Draft.ofSource source = (d, none)) (clean : d.errors = [])
    (linked : d.program.link size = .ok words) : ∃ codes, d.program.Assembled size words codes := by
  obtain ⟨steps, records⟩ := Draft.records_ofSource finished clean
  have good := (Draft.reflects_ofSource finished).clean_iff.mp clean
  obtain ⟨codes, split, encoded, fits⟩ := link_ok linked
  refine ⟨codes, split, encoded, fits, ?_, records.offsets, ?_⟩
  · intro i hi
    obtain ⟨k, bound, rfl⟩ := List.getElem_of_mem hi
    have bound' : k < steps.length := records.instructions.length_eq ▸ bound
    obtain ⟨-, _, _, _, _, _, kinds⟩ := records.instructions.get bound' bound
    exact kinds
  · intro name offset mem
    obtain ⟨l, hl, label, before, after, parts, sum, -, -⟩ := records.labels name offset mem
    refine ⟨undeclared_of_records records good hl label, before, after, parts, ?_⟩
    rw [sum, prologueLength_eq]
    exact Int.add_comm ..

theorem assembled_of_assemble {a : Assembler} {source : String} {words : List Int}
    {p : ObjectProgram} (assembled : (a.assemble source).2 = .ok words)
    (program : (a.assemble source).1.program = some p) :
    ∃ d codes, Draft.ofSource source = (d, none) ∧ d.errors = [] ∧ d.program = p ∧
      p.Assembled a.memorySize words codes := by
  obtain ⟨p', parsed, linked, kept⟩ := Assembler.assemble_ok assembled
  cases program.symm.trans kept
  obtain ⟨d, finished, clean, rfl⟩ := Assembler.parse_ok parsed
  obtain ⟨codes, assembled⟩ := assembled_of_link finished clean linked
  exact ⟨d, codes, finished, clean, rfl, assembled⟩

namespace Assembled

variable {p : ObjectProgram} {size : Int} {words : List Int} {codes : List (List Int)}

theorem length_eq (h : p.Assembled size words codes) :
    words.length = 6 + wordCount p.instructions + 1 :=
  words_length h.encoded h.split

theorem code_at (h : p.Assembled size words codes) {before after : List Instruction}
    {i : Instruction} (parts : p.instructions = before ++ i :: after) :
    ∃ values, List.Forall₂ (p.Resolves size) i.operands values ∧
      ∀ (k : Nat) (w : Int), ((i.opcode.id : Int) :: values)[k]? = some w →
        words[6 + wordCount before + k]? = some w := by
  have bound : before.length < p.instructions.length := by simp [parts]
  have bound' : before.length < codes.length := h.encoded.length_eq ▸ bound
  have at_i : p.instructions[before.length] = i := by simp [parts]
  obtain ⟨values, code, resolved⟩ := h.encoded.get bound bound'
  simp only [List.get_eq_getElem, at_i] at code resolved
  obtain ⟨front, back, split, length⟩ :=
    code_placed h.encoded h.split (List.getElem?_eq_some_iff.mpr ⟨bound', rfl⟩)
  have place : front.length = 6 + wordCount before := by
    rw [length, parts, List.take_left]
    rfl
  refine ⟨values, resolved, ?_⟩
  intro k w hw
  rw [← code] at hw
  have inside : k < codes[before.length].length := (List.getElem?_eq_some_iff.mp hw).1
  rw [split, List.append_assoc, ← place, List.getElem?_append_right (Nat.le_add_right _ _),
    Nat.add_sub_cancel_left, List.getElem?_append_left inside]
  exact hw

theorem halt_at (h : p.Assembled size words codes) :
    words[6 + wordCount p.instructions]? = some haltWord := by
  have length : (prologue (p.variableBase size) ++ codes.flatten).length =
      6 + wordCount p.instructions := by
    rw [List.length_append, encodes_length h.encoded]
    rfl
  rw [h.split, ← length, List.getElem?_append_right (Nat.le_refl _), Nat.sub_self]
  rfl

theorem prologue_at (h : p.Assembled size words codes) {k : Nat} {w : Int}
    (at_k : (prologue (p.variableBase size))[k]? = some w) : words[k]? = some w := by
  have inside : k < (prologue (p.variableBase size)).length := (List.getElem?_eq_some_iff.mp at_k).1
  rw [h.split, List.append_assoc, List.getElem?_append_left inside]
  exact at_k

theorem first (h : p.Assembled size words codes) (k : Nat) (w : Int)
    (at_k : [(Opcode.moveImmReg.id : Int), p.variableBase size, Register.stkbot.id][k]? = some w) :
    words[0 + k]? = some w := by
  refine h.prologue_at ?_
  match k, at_k with
  | 0, at_k => exact at_k
  | 1, at_k => exact at_k
  | 2, at_k => exact at_k

theorem second (h : p.Assembled size words codes) (k : Nat) (w : Int)
    (at_k : [(Opcode.moveImmReg.id : Int), p.variableBase size, Register.stktop.id][k]? = some w) :
    words[3 + k]? = some w := by
  refine h.prologue_at ?_
  match k, at_k with
  | 0, at_k => exact at_k
  | 1, at_k => exact at_k
  | 2, at_k => exact at_k

theorem boundary_range (h : p.Assembled size words codes) {a : Int} (boundary : p.Boundary a) :
    6 ≤ a ∧ a < words.length := by
  obtain ⟨before, after, parts, rfl⟩ := boundary
  have length := h.length_eq
  rw [parts, wordCount_append] at length
  omega

theorem boundary_eq (h : p.Assembled size words codes) {a : Int} (boundary : p.Boundary a) :
    (∃ i ∈ p.instructions, a = 6 + i.offset) ∨ a = words.length - 1 := by
  obtain ⟨before, after, parts, rfl⟩ := boundary
  cases after with
  | nil =>
    rw [List.append_nil] at parts
    rw [← parts]
    have length := h.length_eq
    exact .inr (by omega)
  | cons i after =>
    have mem : i ∈ p.instructions := parts ▸ List.mem_append_right _ (List.mem_cons_self ..)
    exact .inl ⟨i, mem, by rw [h.offsets before i after parts]⟩

end Assembled

/-- The words of an instruction stand at that address, and behind them comes another boundary. -/
structure Stands (p : ObjectProgram) (size : Int) (words : List Int) (i : Instruction)
    (values : List Int) (a : Nat) : Prop where
  mem : i ∈ p.instructions
  kinds : i.operands.map Operand.kind = i.opcode.kinds
  resolved : List.Forall₂ (p.Resolves size) i.operands values
  placed : ∀ (k : Nat) (w : Int), ((i.opcode.id : Int) :: values)[k]? = some w →
    words[a + k]? = some w
  next : p.Boundary (a + i.opcode.size)

namespace Assembled

variable {p : ObjectProgram} {size : Int} {words : List Int} {codes : List (List Int)}

theorem size_eq (h : p.Assembled size words codes) {i : Instruction} (mem : i ∈ p.instructions) :
    i.size = i.opcode.size := by
  have count := congrArg List.length (h.kinds i mem)
  simp only [List.length_map] at count
  simp only [Instruction.size, Opcode.size, count]

theorem stands_at (h : p.Assembled size words codes) {before after : List Instruction}
    {i : Instruction} (parts : p.instructions = before ++ i :: after) :
    ∃ values, p.Stands size words i values (6 + wordCount before) := by
  have mem : i ∈ p.instructions := by simp [parts]
  obtain ⟨values, resolved, placed⟩ := h.code_at parts
  refine ⟨values, mem, h.kinds i mem, resolved, placed, before ++ [i], after, by simp [parts], ?_⟩
  simp only [wordCount_append, wordCount_cons, wordCount_nil, h.size_eq mem]
  omega

theorem boundary_cases (h : p.Assembled size words codes) {a : Int} (boundary : p.Boundary a) :
    ∃ n : Nat, a = n ∧
      (words[n]? = some haltWord ∨ ∃ i values, p.Stands size words i values n) := by
  obtain ⟨before, after, parts, eq⟩ := boundary
  refine ⟨6 + wordCount before, by omega, ?_⟩
  cases after with
  | nil =>
    rw [List.append_nil] at parts
    exact .inl (parts ▸ h.halt_at)
  | cons i after => exact .inr ⟨i, h.stands_at parts⟩

end Assembled

namespace Stands

variable {p : ObjectProgram} {size : Int} {words : List Int} {i : Instruction} {values : List Int}
  {a : Nat}

theorem count (h : p.Stands size words i values a) : values.length = i.opcode.kinds.length := by
  rw [← h.kinds, List.length_map, h.resolved.length_eq]

theorem operand (h : p.Stands size words i values a) {kw : OperandKind × Int}
    (mem : kw ∈ i.opcode.kinds.zip values) :
    ∃ o ∈ i.operands, o.kind = kw.1 ∧ p.Resolves size o kw.2 := by
  rw [← h.kinds, List.zip_map_left, List.mem_map] at mem
  obtain ⟨ov, hov, rfl⟩ := mem
  exact ⟨ov.1, (List.of_mem_zip hov).1, rfl, List.forall₂_zip h.resolved hov⟩

theorem last (h : p.Stands size words i values a) {v : Int} (last : values.getLast? = some v) :
    ∃ o, i.operands.getLast? = some o ∧ i.opcode.kinds.getLast? = some o.kind ∧
      p.Resolves size o v := by
  obtain ⟨o, ho, resolves⟩ := forall₂_getLast? h.resolved last
  refine ⟨o, ho, ?_, resolves⟩
  rw [← h.kinds, List.getLast?_map, ho]
  rfl

end Stands

theorem Resolves.register_eq {p : ObjectProgram} {size : Int} {o : Operand} {v : Int}
    (h : p.Resolves size o v) (kind : o.kind = .register) :
    ∃ name r, o = .register name ∧ Register.named? name = some r ∧ v = r.id := by
  cases h with
  | @register name r found => exact ⟨name, r, rfl, found, rfl⟩
  | literal _ => cases kind
  | declared _ => cases kind
  | label _ => cases kind

theorem Resolves.symbol_eq {p : ObjectProgram} {size : Int} {o : Operand} {v : Int}
    (h : p.Resolves size o v) (kind : o.kind = .memory) :
    ∃ name, o = .symbol name ∧
      ((name ∈ p.variableNames ∧ p.variableBase size ≤ v ∧ v < size) ∨
        ∃ offset, (name, offset) ∈ p.labels ∧ v = offset + prologueLength) := by
  cases h with
  | register _ => cases kind
  | literal _ => cases kind
  | @declared name k named =>
    obtain ⟨bound, eq⟩ := List.getElem?_eq_some_iff.mp named
    refine ⟨name, rfl, .inl ⟨eq ▸ List.getElem_mem bound, ?_, by omega⟩⟩
    show size - p.variableNames.length ≤ _
    omega
  | @label name offset mem => exact ⟨name, rfl, .inr ⟨offset, mem, rfl⟩⟩

end ObjectProgram

end BusMachine
