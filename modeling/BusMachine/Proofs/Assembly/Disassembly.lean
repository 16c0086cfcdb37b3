import BusMachine.Proofs.Assembly.Layout
import BusMachine.Proofs.Assembly.WritableWords
import BusMachine.Proofs.Instruction.Programs

/-!
Disassembly of assembled programs. The walk finds the prologue, the instructions of the source text
one by one, and the halt word. Operands are written as in the source text, but symbols have become
addresses.
-/
namespace BusMachine

open Text Grammar Disassembly

/-- How the disassembly writes an operand that has become a word of the executable. -/
inductive Writes (denotes : String → Int → Prop) : String → Int → String → Prop where
  | register {name : String} {w : Int} : denotes ("%" ++ name) w →
      Writes denotes ("%" ++ name) w ("%" ++ lowerCase name)
  | immediate {word : String} {n : Int} : Decimal word.toList n → Writes denotes word n (toString n)
  | memory {name : String} {a : Int} : Identifier name → denotes name a →
      Writes denotes name a ("[" ++ toString a ++ "]")

/-- The words that a statement becomes, and the text that they are written as. -/
def Statement.Shown (s : Statement) (denotes : String → Int → Prop) (words : List Int)
    (text : String) : Prop :=
  ∃ (c : Opcode) (first : String) (operands : List String) (shown : List (Int × String)),
    Statement.wordsOf s.text = first :: operands ∧ lowerCase first = c.mnemonic ∧
    List.Forall₂ HasKind operands c.kinds ∧ words = (c.id : Int) :: shown.map Prod.fst ∧
    text = " ".intercalate (lowerCase first :: shown.map Prod.snd) ∧
    List.Forall₂ (fun word o => Writes denotes word o.1 o.2) operands shown

theorem Grammar.HasKind.of_percent {name : String} {kind : OperandKind}
    (h : HasKind ("%" ++ name) kind) :
    kind = .register := by
  obtain ⟨c, rest, spelled, rfl⟩ := h.first
  rw [toList_percent] at spelled
  cases spelled
  rfl

variable {size : Int} {words : List Int} {declarations body steps : List Statement}
  {is : List Instruction}
  {denotes : String → Int → Prop}

theorem Denotes.writes (declared : ∀ s ∈ declarations, Identifier s.text) {word : String}
    {kind : OperandKind} {v : Int} (has : HasKind word kind)
    (h : Denotes size words declarations body is word v) :
    Writes (Denotes size words declarations body is) word v (kind.textOf v) := by
  cases h with
  | @register name r lower =>
    obtain rfl := has.of_percent
    have text : OperandKind.register.textOf r.id = "%" ++ lowerCase name := by
      simp only [OperandKind.textOf, Register.ofId?_id, lower]
    exact text ▸ .register (.register lower)
  | immediate decimal =>
    obtain rfl : kind = .immediate := has.unique ⟨_, decimal⟩
    exact .immediate decimal
  | declared at_k =>
    have identifier := declared _ (List.mem_of_getElem? at_k)
    obtain rfl : kind = .memory := has.unique identifier
    exact .memory identifier (.declared at_k)
  | label hl label split earlier later =>
    obtain rfl : kind = .memory := has.unique label.1
    exact .memory label.1 (.label hl label split earlier later)
  | lastLabel hl label earlier =>
    obtain rfl : kind = .memory := has.unique label.1
    exact .memory label.1 (.lastLabel hl label earlier)

theorem writes_operands
    (writes : ∀ word kind v, HasKind word kind → denotes word v →
      Writes denotes word v (kind.textOf v))
    {operands : List String} {kinds : List OperandKind} {values : List Int}
    (kinded : List.Forall₂ HasKind operands kinds)
    (denoted : List.Forall₂ denotes operands values) :
    ∃ shown : List (Int × String), shown.map Prod.fst = values ∧
      shown.map Prod.snd = List.zipWith OperandKind.textOf kinds values ∧
      List.Forall₂ (fun word o => Writes denotes word o.1 o.2) operands shown := by
  induction kinded generalizing values with
  | nil =>
    cases denoted
    exact ⟨[], rfl, rfl, .nil⟩
  | @cons word kind operands kinds has _ ih =>
    cases denoted with
    | @cons _ v _ values first rest =>
      obtain ⟨shown, rfl, texts, written⟩ := ih rest
      exact ⟨(v, kind.textOf v) :: shown, rfl, congrArg (kind.textOf v :: ·) texts,
        .cons (writes word kind v has first) written⟩

theorem Statement.Becomes.shown {s : Statement} {code : List Int} (h : s.Becomes denotes code)
    (writes : ∀ word kind v, HasKind word kind → denotes word v →
      Writes denotes word v (kind.textOf v)) :
    ∃ e : Encoded, e.words = code ∧ s.Shown denotes e.words e.text := by
  obtain ⟨c, first, operands, values, spelled, mnemonic, kinded, rfl, denoted⟩ := h
  obtain ⟨shown, rfl, texts, written⟩ := writes_operands writes kinded denoted
  have count : (shown.map Prod.fst).length = c.kinds.length := by
    rw [← denoted.length_eq, kinded.length_eq]
  refine ⟨⟨c, shown.map Prod.fst, count⟩, rfl, c, first, operands, shown, spelled, mnemonic, kinded,
    rfl, ?_,
    written⟩
  rw [mnemonic, texts]
  rfl

theorem encoded_of_becomes {codes : List (List Int)}
    (writes : ∀ word kind v, HasKind word kind → denotes word v →
      Writes denotes word v (kind.textOf v))
    (h : List.Forall₂ (fun s code => s.Becomes denotes code) steps codes) :
    ∃ es : List Encoded, es.map Encoded.words = codes ∧
      List.Forall₂ (fun s e => s.Shown denotes e.words e.text) steps es := by
  induction h with
  | nil => exact ⟨[], rfl, .nil⟩
  | cons first _ ih =>
    obtain ⟨e, rfl, shown⟩ := first.shown writes
    obtain ⟨es, rfl, rest⟩ := ih
    exact ⟨e :: es, rfl, .cons shown rest⟩

theorem Statement.Shown.length {s : Statement} {i : Instruction} {code : List Int} {text : String}
    (yields : s.Yields i) (h : s.Shown denotes code text) : code.length = i.size := by
  obtain ⟨-, first, ws, split, -, reads, -⟩ := yields
  obtain ⟨c, first', ws', shown, split', -, -, rfl, -, written⟩ := h
  rw [split] at split'
  cases split'
  rw [List.length_cons, List.length_map, ← written.length_eq, reads.length_eq, Instruction.size,
    Nat.add_comm]

theorem linesFrom_shown {es : List Encoded} (a : Nat)
    (h : List.Forall₂ (fun s e => s.Shown denotes e.words e.text) steps es) :
    List.Forall₂ (fun s (l : Line) => s.Shown denotes l.words l.text) steps (linesFrom a es) := by
  induction h generalizing a with
  | nil => exact .nil
  | cons first _ ih => exact .cons first (ih _)

theorem linesFrom_addresses {all before : List Instruction} {es : List Encoded}
    (offsets : ∀ (before : List Instruction) (i : Instruction) (after : List Instruction),
      all = before ++ i :: after → i.offset = (wordCount before : Int))
    (sizes : List.Forall₂ (fun i e => e.words.length = i.size) is es) (parts : all = before ++ is) :
    (linesFrom (6 + wordCount before) es).map Line.address = is.map (fun i => 6 + i.offset) := by
  -- Each instruction moves over to those before it, and its size is that of its words.
  induction sizes generalizing before with
  | nil => rfl
  | @cons i e is es size _ ih =>
    have moved : all = before ++ [i] ++ is := by
      rw [parts, List.append_assoc, List.singleton_append]
    have rest := ih moved
    rw [wordCount_append, wordCount_cons, wordCount_nil, Nat.add_zero, ← size, e.words_length,
      ← Nat.add_assoc] at rest
    rw [linesFrom, List.map_cons, rest, List.map_cons, offsets before i is parts]
    rfl

namespace Assembler

/-- Disassembling an executable gives its source text back, statement by statement, between the two
instructions of the prologue and the halt word. It is written if the words can be, and these can if
the memory size can. -/
theorem disassembly_follows_source (a : Assembler) {source : String} {words : List Int}
    (h : (a.assemble source).2 = .ok words) :
    ∃ declarations body steps p codes shown lines texts, (a.assemble source).1.program = some p ∧
      Layout source a.memorySize words declarations body steps p codes ∧
      (∀ k, disassemble k words 0 none = write k words texts) ∧
      (Numeral.isWritable a.memorySize = true → ∀ w ∈ words, Numeral.isWritable w = true) ∧
      List.Forall₂ Line.ReadFrom texts lines ∧
      lines.length = p.instructions.length + 3 ∧
      lines = ⟨0, [9, a.memorySize - declarations.length, 7],
          " ".intercalate ["move", toString (a.memorySize - declarations.length), "%stkbot"]⟩ ::
        ⟨3, [9, a.memorySize - declarations.length, 6],
          " ".intercalate ["move", toString (a.memorySize - declarations.length), "%stktop"]⟩ ::
        (shown ++ [⟨words.length - 1, [-1], "halt"⟩]) ∧
      shown.map Line.address = p.instructions.map (fun i => 6 + i.offset) ∧
      List.Forall₂ (fun s (l : Line) =>
        s.Shown (Denotes a.memorySize words declarations body p.instructions) l.words l.text) steps
          shown ∧
      (lines.map Line.words).flatten = words ∧
      ∀ l ∈ lines, Position.slice words l.address (l.address + l.words.length) = l.words := by
  obtain ⟨p, parsed, linked, kept⟩ := assemble_ok h
  obtain ⟨d, finished, clean, rfl⟩ := parse_ok parsed
  obtain ⟨declarations, body, steps, codes, layout⟩ := layout_of_link finished clean linked
  have declared : ∀ s ∈ declarations, Identifier s.text :=
    fun s hs => (layout.divides.declared s hs).1
  obtain ⟨es, rfl, shown⟩ :=
    encoded_of_becomes (fun word kind v => Denotes.writes declared) layout.becomes
  have sizes : List.Forall₂ (fun i e => e.words.length = i.size) d.program.instructions es := by
    refine forall₂_comp ?_ layout.instructions.flip shown
    intro i s e yields shown
    exact shown.length yields
  have addresses := linesFrom_addresses layout.offsets sizes (List.nil_append _).symm
  -- The prologue is two instructions more, in front of those of the source text.
  let base := a.memorySize - declarations.length
  let all : List Encoded := ⟨.moveImmReg, [base, 7], rfl⟩ :: ⟨.moveImmReg, [base, 6], rfl⟩ :: es
  obtain rfl : words = Disassembly.program all := layout.words_eq
  have walk := walk_program all
  have read : List.Forall₂ Line.ReadFrom ((programLines all).map Line.render) (programLines all) :=
    List.forall₂_map_left_iff.mpr (List.forall₂_same.mpr fun l _ => l.readFrom_render)
  have written (k : Writing) : disassemble k (Disassembly.program all) 0 none =
      write k (Disassembly.program all) ((programLines all).map Line.render) := by
    have texts := walk.disassemble_eq k
    rwa [programLines_words] at texts
  obtain ⟨_, linked⟩ := ObjectProgram.assembled_of_link finished clean linked
  refine ⟨declarations, body, steps, d.program, _, linesFrom 6 es, programLines all, _, kept,
    layout, written,
    linked.isWritable, read, ?_, rfl, addresses, linesFrom_shown 6 shown, programLines_words all,
    fun l hl => (walk.shows l hl).slice⟩
  have count := congrArg List.length addresses
  rw [List.length_map, List.length_map] at count
  rw [← count]
  exact congrArg (· + 2) List.length_append

/-- A program whose operands include the halt word and the ids of instructions. -/
def movesMinusOne : String :=
  "n\nMove -01 %Reg0\nagain:\nmove %reg0 n ; n is -1\njmp again"

def movesMinusOneTexts : List String :=
  ["0000: 9 19 7            move 19 %stkbot", "0003: 9 19 6            move 19 %stktop",
    "0006: 9 -1 1            move -1 %reg0", "0009: 7 1 19            move %reg0 [19]",
    "0012: 12 9              jmp [9]", "0014: -1                halt"]

theorem disassembly_follows_movesMinusOne :
    ((ofSize 20).assemble movesMinusOne).2 = .ok
      [9, 19, 7, 9, 19, 6, 9, -1, 1, 7, 1, 19, 12, 9, -1] ∧
      disassemble .limited
        [9, 19, 7, 9, 19, 6, 9, -1, 1, 7, 1, 19, 12, 9, -1] 0 none = .ok movesMinusOneTexts ∧
      ∃ lines : List Line, List.Forall₂ Line.ReadFrom movesMinusOneTexts lines ∧
        lines.length = 3 + 3 ∧
        (lines.map Line.words).flatten = [9, 19, 7, 9, 19, 6, 9, -1, 1, 7, 1, 19, 12, 9, -1] := by
  have assembled : ((ofSize 20).assemble movesMinusOne).2 =
      .ok [9, 19, 7, 9, 19, 6, 9, -1, 1, 7, 1, 19, 12, 9, -1] := by decide +kernel
  have count : ((ofSize 20).assemble movesMinusOne).1.program.map (·.instructions.length) =
    some 3 := by
    decide +kernel
  have shown : disassemble .limited [9, 19, 7, 9, 19, 6, 9, -1, 1, 7, 1, 19, 12, 9, -1] 0 none =
      .ok movesMinusOneTexts := by decide +kernel
  obtain ⟨_, _, _, p, _, _, lines, texts, kept, -, disassembled, -, read, length, -, -, -, flat,
    -⟩ :=
    disassembly_follows_source (ofSize 20) assembled
  obtain rfl := eq_of_write ((disassembled .limited).symm.trans shown)
  rw [kept] at count
  exact ⟨assembled, shown, lines, read, Option.some.inj count ▸ length, flat⟩

/-- The words of this program include the memory size, which is too long to be written. -/
theorem long_base_is_not_disassembled :
    ((ofSize (10 ^ 4300)).assemble "ret").2 = .ok (oneReturnWords (10 ^ 4300)) ∧
      ¬∃ texts, disassemble .limited (oneReturnWords (10 ^ 4300)) 0 none = .ok texts := by
  have long := Numeral.not_isWritable_pow
  refine ⟨(assemble_oneReturn (Int.le_trans (by decide) Numeral.ten_le_pow)).1, ?_⟩
  generalize (10 ^ 4300 : Int) = w at long
  let first : Encoded := ⟨.moveImmReg, [w, 7], rfl⟩
  have stand : first.words <+: (oneReturnWords w).drop 0 := ⟨[9, w, 6, 20, -1], rfl⟩
  have failed : decodeAt .limited (oneReturnWords w) (0 : Nat) = .error (.numeral .unwritable) := by
    rw [(Decodes.whole first stand).decodeAt_of_stands stand rfl]
    exact write_of_not (w := w) (by simp [first, Encoded.words])
      ((Writing.limited_allows w).trans long) _
  have none : disassemble .limited (oneReturnWords w) (0 : Nat) (some 8) = _ :=
    disassemble_of_error failed (by decide)
  rintro ⟨texts, disassembled⟩
  cases none.symm.trans disassembled

end Assembler

end BusMachine
