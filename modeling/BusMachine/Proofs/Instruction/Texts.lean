import BusMachine.Proofs.Instruction.Encoding
import BusMachine.Proofs.Text.PlainText

/-!
The texts of instructions. The halt word, plain words and instructions begin with different
characters, the pieces of the text of an instruction tell its form and its operand words, and so no
text is written for different words.
-/
namespace BusMachine

open Text Disassembly

/-- The text shows a word and no instruction. -/
def Decoded.IsPlain (d : Decoded) : Prop := ∃ rest, d.text = ".word" ++ rest

theorem Opcode.mnemonic_head? (c : Opcode) :
    c.mnemonic.toList.head? ≠ some 'h' ∧ c.mnemonic.toList.head? ≠ some '.' := by
  cases c <;> decide

theorem plain_head? {d : Decoded} (plain : d.IsPlain) : d.text.toList.head? = some '.' := by
  obtain ⟨rest, text⟩ := plain
  rw [text, String.toList_append]
  rfl

theorem plainWord_isPlain (w : Int) : (plainWord w).IsPlain := by
  have start : ".word " = ".word" ++ " " := by decide
  refine ⟨" " ++ toString w, ?_⟩
  rw [plainWord, start, String.append_assoc]

theorem Decoded.IsPlain.ne_halt {d : Decoded} (plain : d.IsPlain) : d.text ≠ "halt" := by
  intro text
  have first := plain_head? plain
  rw [text] at first
  exact absurd first (by decide)

theorem Encoded.text_ne_halt (e : Encoded) : e.text ≠ "halt" := by
  intro text
  have first := e.text_head?
  rw [text] at first
  exact e.opcode.mnemonic_head?.1 first.symm

theorem Encoded.not_plain (e : Encoded) (size : Nat) :
    ¬Decoded.IsPlain ⟨e.text, size⟩ := fun plain =>
  e.opcode.mnemonic_head?.2 (e.text_head?.symm.trans (plain_head? plain))

namespace Register

theorem find?_lowerName (r : Register) : all.find? (·.lowerName == r.lowerName) = some r := by
  cases r <;> rfl

theorem lowerName_injective {r s : Register} (same : r.lowerName = s.lowerName) : r = s :=
  Option.some.inj ((find?_lowerName r).symm.trans (same ▸ find?_lowerName s))

theorem lowerName_plain (r : Register) : ∀ c ∈ r.lowerName.toList, isPlain c = true := by
  have plain : r.lowerName.toList.all isPlain = true := by cases r <;> rfl
  exact List.all_eq_true.mp plain

theorem lowerName_head? (r : Register) : r.lowerName.toList.head? ≠ some '?' := by
  cases r <;> decide

end Register

namespace OperandKind

/-- The kind of an operand by the first character of its text. -/
def ofFirst (c : Char) : OperandKind :=
  if c = '%' then .register else if c = '[' then .memory else .immediate

theorem toList_textOf_named {w : Int} {r : Register} (found : Register.ofId? w = some r) :
    (register.textOf w).toList = '%' :: r.lowerName.toList := by
  simp only [textOf, found, String.toList_append]
  rfl

theorem toList_textOf_unnamed {w : Int} (unnamed : Register.ofId? w = none) :
    (register.textOf w).toList = '%' :: '?' :: (toString w).toList := by
  simp only [textOf, unnamed, String.toList_append]
  rfl

theorem toList_textOf_memory (w : Int) :
    (memory.textOf w).toList = '[' :: ((toString w).toList ++ [']']) := by
  simp only [textOf, String.toList_append]
  rfl

theorem textOf_first (kind : OperandKind) (w : Int) :
    ∃ c rest, (kind.textOf w).toList = c :: rest ∧ ofFirst c = kind := by
  cases kind with
  | register =>
    cases found : Register.ofId? w with
    | some r => exact ⟨_, _, toList_textOf_named found, rfl⟩
    | none => exact ⟨_, _, toList_textOf_unnamed found, rfl⟩
  | memory => exact ⟨_, _, toList_textOf_memory w, rfl⟩
  | immediate =>
    obtain ⟨c, rest, spelled, digit | rfl | rfl⟩ := (decimal_toString w).head
    · exact ⟨c, rest,
        spelled, by rw [ofFirst, if_neg (isDigit_ne digit rfl), if_neg (isDigit_ne digit rfl)]⟩
    · exact ⟨_, _, spelled, rfl⟩
    · exact ⟨_, _, spelled, rfl⟩

theorem textOf_register_injective {w w' : Int}
    (same : register.textOf w = register.textOf w') : w = w' := by
  have chars := congrArg String.toList same
  cases found : Register.ofId? w with
  | some r =>
    rw [toList_textOf_named found] at chars
    cases found' : Register.ofId? w' with
    | some s =>
      rw [toList_textOf_named found'] at chars
      have names : r = s :=
        Register.lowerName_injective (String.toList_injective (List.cons.inj chars).2)
      rw [← Register.id_of_ofId? found, names, Register.id_of_ofId? found']
    | none =>
      rw [toList_textOf_unnamed found'] at chars
      exact absurd (congrArg List.head? (List.cons.inj chars).2) r.lowerName_head?
  | none =>
    rw [toList_textOf_unnamed found] at chars
    cases found' : Register.ofId? w' with
    | some s =>
      rw [toList_textOf_named found'] at chars
      exact absurd (congrArg List.head? (List.cons.inj chars).2).symm s.lowerName_head?
    | none =>
      rw [toList_textOf_unnamed found'] at chars
      exact toString_injective (String.toList_injective (List.cons.inj (List.cons.inj chars).2).2)

theorem textOf_injective {kind kind' : OperandKind} {w w' : Int}
    (same : kind.textOf w = kind'.textOf w') :
    kind = kind' ∧ w = w' := by
  have kinds : kind = kind' := by
    obtain ⟨c, rest, spelled, rfl⟩ := textOf_first kind w
    obtain ⟨c', rest', spelled', rfl⟩ := textOf_first kind' w'
    rw [same, spelled'] at spelled
    rw [(List.cons.inj spelled).1]
  subst kinds
  refine ⟨rfl, ?_⟩
  cases kind with
  | register => exact textOf_register_injective same
  | memory =>
    have chars := congrArg String.toList same
    rw [toList_textOf_memory, toList_textOf_memory] at chars
    exact toString_injective
      (String.toList_injective (List.append_cancel_right (List.cons.inj chars).2))
  | immediate => exact toString_injective same

theorem textOf_plain (kind : OperandKind) (w : Int) :
    ∀ c ∈ (kind.textOf w).toList, isPlain c = true := by
  have number : ∀ c ∈ (toString w).toList, isPlain c = true := (decimal_toString w).isPlain
  cases kind with
  | register =>
    cases found : Register.ofId? w with
    | some r =>
      rw [toList_textOf_named found]
      exact List.forall_mem_cons.mpr ⟨rfl, r.lowerName_plain⟩
    | none =>
      rw [toList_textOf_unnamed found]
      exact List.forall_mem_cons.mpr ⟨rfl, List.forall_mem_cons.mpr ⟨rfl, number⟩⟩
  | memory =>
    rw [toList_textOf_memory]
    exact List.forall_mem_cons.mpr ⟨rfl,
      List.forall_mem_append.mpr ⟨number, List.forall_mem_singleton.mpr rfl⟩⟩
  | immediate => exact number

theorem zipWith_textOf_injective {kinds kinds' : List OperandKind} {ws ws' : List Int}
    (count : ws.length = kinds.length) (count' : ws'.length = kinds'.length)
    (same : List.zipWith textOf kinds ws = List.zipWith textOf kinds' ws') :
    kinds = kinds' ∧ ws = ws' := by
  induction kinds generalizing kinds' ws ws' with
  | nil =>
    obtain rfl := List.eq_nil_of_length_eq_zero count
    cases kinds' with
    | nil => exact ⟨rfl, (List.eq_nil_of_length_eq_zero count').symm⟩
    | cons kind' kinds' =>
      obtain ⟨w', ws', rfl⟩ := List.exists_cons_of_length_eq_add_one count'
      cases same
  | cons kind kinds ih =>
    obtain ⟨w, ws, rfl⟩ := List.exists_cons_of_length_eq_add_one count
    cases kinds' with
    | nil => cases same
    | cons kind' kinds' =>
      obtain ⟨w', ws', rfl⟩ := List.exists_cons_of_length_eq_add_one count'
      obtain ⟨first, rest⟩ := List.cons.inj same
      obtain ⟨rfl, rfl⟩ := textOf_injective first
      obtain ⟨rfl, rfl⟩ := ih (Nat.succ.inj count) (Nat.succ.inj count') rest
      exact ⟨rfl, rfl⟩

end OperandKind

theorem Opcode.mnemonic_plain (c : Opcode) : ∀ d ∈ c.mnemonic.toList, isPlain d = true := by
  have plain : c.mnemonic.toList.all isPlain = true := by cases c <;> rfl
  exact List.all_eq_true.mp plain

namespace Encoded

theorem text_splitOn (e : Encoded) : e.text.toList.splitOn ' ' =
    (e.opcode.mnemonic :: List.zipWith OperandKind.textOf e.opcode.kinds e.operands).map
      String.toList := by
  have blank : isPlain ' ' = false := by decide
  have plain :
      ∀ cs ∈ (e.opcode.mnemonic ::
        List.zipWith OperandKind.textOf e.opcode.kinds e.operands).map String.toList, ' ' ∉ cs := by
    intro cs hcs mem
    obtain ⟨s, hs, rfl⟩ := List.mem_map.mp hcs
    rcases List.mem_cons.mp hs with rfl | hs
    · exact absurd (e.opcode.mnemonic_plain _ mem) (by decide)
    · obtain ⟨k, bound, rfl⟩ := List.getElem_of_mem hs
      rw [List.getElem_zipWith] at mem
      exact absurd (OperandKind.textOf_plain _ _ _ mem) (by decide)
  rw [text, String.toList_intercalate]
  exact List.splitOn_intercalate ' ' plain (List.cons_ne_nil _ _)

theorem text_injective {e e' : Encoded} (same : e.text = e'.text) : e.words = e'.words := by
  have pieces : e.text.toList.splitOn ' ' = e'.text.toList.splitOn ' ' := by rw [same]
  rw [text_splitOn, text_splitOn] at pieces
  obtain ⟨mnemonic, texts⟩ :=
    List.cons.inj (List.map_injective_iff.mpr (fun _ _ => String.toList_injective) pieces)
  obtain ⟨kinds, operands⟩ := OperandKind.zipWith_textOf_injective e.count e'.count texts
  have opcode : e.opcode = e'.opcode := by
    have form := e.opcode.withForm?_mnemonic_kinds
    rw [mnemonic, kinds, e'.opcode.withForm?_mnemonic_kinds] at form
    exact (Option.some.inj form).symm
  rw [words, words, opcode, operands]

end Encoded

namespace Disassembly

variable {words words' ws ws' : List Int} {a : Nat} {d : Decoded} {t t' : String}

theorem plainWord_injective {w w' : Int}
    (same : (plainWord w).text = (plainWord w').text) : w = w' := by
  have chars := congrArg String.toList same
  rw [plainWord, plainWord, String.toList_append, String.toList_append] at chars
  exact toString_injective (String.toList_injective (List.append_cancel_left chars))

/-- What is written for words: for the halt word, for any other single word that is no whole
instruction, and for the words of an instruction. -/
inductive WrittenAs : List Int → String → Prop where
  | halt : WrittenAs [haltWord] "halt"
  | plain {w : Int} : w ≠ haltWord → (∀ c : Opcode, w = c.id → c.kinds ≠ []) →
      WrittenAs [w] (plainWord w).text
  | whole (e : Encoded) : WrittenAs e.words e.text

namespace WrittenAs

theorem ne_nil (h : WrittenAs ws t) : ws ≠ [] := by
  cases h <;> exact List.cons_ne_nil _ _

theorem words_unique (h : WrittenAs ws t) (h' : WrittenAs ws' t) : ws = ws' := by
  cases h with
  | halt =>
    generalize text : "halt" = t at h'
    cases h' with
    | halt => rfl
    | plain _ _ => exact absurd text.symm (plainWord_isPlain _).ne_halt
    | whole e => exact absurd text.symm e.text_ne_halt
  | @plain w _ _ =>
    have plain := plainWord_isPlain w
    generalize text : (plainWord w).text = t at h'
    cases h' with
    | halt => exact absurd text plain.ne_halt
    | plain _ _ => rw [plainWord_injective text]
    | whole e => exact absurd (text ▸ plain) (e.not_plain 1)
  | whole e =>
    generalize text : e.text = t at h'
    cases h' with
    | halt => exact absurd text e.text_ne_halt
    | @plain w _ _ => exact absurd (text ▸ plainWord_isPlain w) (e.not_plain 1)
    | whole e' => exact Encoded.text_injective text

theorem text_unique (h : WrittenAs ws t) (h' : WrittenAs ws t') : t = t' := by
  cases h with
  | halt =>
    generalize shown : [haltWord] = ws at h'
    cases h' with
    | halt => rfl
    | plain other _ => exact absurd (List.cons.inj shown).1.symm other
    | whole e => exact absurd (List.cons.inj shown).1.symm e.opcode.id_ne_haltWord
  | @plain w other cut =>
    generalize shown : [w] = ws at h'
    cases h' with
    | halt => exact absurd (List.cons.inj shown).1 other
    | plain _ _ => rw [(List.cons.inj shown).1]
    | whole e =>
      obtain ⟨opcode, operands⟩ := List.cons.inj shown
      exact absurd (List.eq_nil_of_length_eq_zero (operands ▸ e.count).symm) (cut e.opcode opcode)
  | whole e =>
    generalize shown : e.words = ws at h'
    cases h' with
    | halt => exact absurd (List.cons.inj shown).1 e.opcode.id_ne_haltWord
    | plain _ cut =>
      obtain ⟨opcode, operands⟩ := List.cons.inj shown
      exact absurd (List.eq_nil_of_length_eq_zero (operands ▸ e.count).symm)
        (cut e.opcode opcode.symm)
    | whole e' =>
      obtain ⟨opcode, operands⟩ := List.cons.inj shown
      rw [Encoded.text, Encoded.text, Opcode.eq_of_id_eq opcode, operands]

/-- Words that begin with the halt word are that word alone, and no others show as it does. -/
theorem halt_or_other {w : Int} (h : WrittenAs (w :: ws) t) :
    (w = haltWord ∧ ws = [] ∧ t = "halt") ∨ (w ≠ haltWord ∧ t ≠ "halt") := by
  generalize shown : w :: ws = all at h
  cases h with
  | halt =>
    obtain ⟨rfl, rfl⟩ := List.cons.inj shown
    exact .inl ⟨rfl, rfl, rfl⟩
  | plain other _ =>
    obtain ⟨rfl, rfl⟩ := List.cons.inj shown
    exact .inr ⟨other, (plainWord_isPlain w).ne_halt⟩
  | whole e =>
    obtain ⟨rfl, rfl⟩ := List.cons.inj shown
    exact .inr ⟨e.opcode.id_ne_haltWord, e.text_ne_halt⟩

end WrittenAs

theorem stands_of_getElem? {w : Int} (at_a : words[a]? = some w) : [w] <+: words.drop a := by
  obtain ⟨bound, rfl⟩ := List.getElem?_eq_some_iff.mp at_a
  exact ⟨words.drop (a + 1), List.getElem_cons_drop bound⟩

theorem Decodes.written (h : Decodes words a d) :
    ∃ ws, ws <+: words.drop a ∧ ws.length = d.size ∧ WrittenAs ws d.text := by
  cases h with
  | halt at_a => exact ⟨_, stands_of_getElem? at_a, rfl, .halt⟩
  | unknown at_a other unknown =>
    refine ⟨_, stands_of_getElem? at_a, rfl, .plain other ?_⟩
    rintro c rfl
    rw [Opcode.ofWord?_id] at unknown
    cases unknown
  | @cut c at_a short =>
    refine ⟨_, stands_of_getElem? at_a, rfl, .plain c.id_ne_haltWord ?_⟩
    intro c' same none
    obtain rfl := Opcode.eq_of_id_eq same
    have bound := (List.getElem?_eq_some_iff.mp at_a).1
    have size : c.size = 1 := by rw [Opcode.size, none, List.length_nil]
    omega
  | whole e stand => exact ⟨_, stand, e.words_length, .whole e⟩

/-- What is decoded at an address of the words, and the words that it is written for. -/
theorem exists_written {a : Int} (first : 0 ≤ a) (inside : a < words.length) :
    ∃ d, (∀ k, decodeAt k words a = write k (Position.slice words a (a + d.size)) d) ∧
      a + d.size ≤ words.length ∧ (Position.slice words a (a + d.size)).length = d.size ∧
      WrittenAs (Position.slice words a (a + d.size)) d.text := by
  obtain ⟨k, rfl⟩ := Int.eq_ofNat_of_zero_le first
  have bound : k < words.length := Int.ofNat_lt.mp inside
  obtain ⟨d, decodes⟩ := exists_decodes bound
  obtain ⟨ws, stand, size, written⟩ := decodes.written
  have length := stand.length_le
  rw [List.length_drop] at length
  have shown := Position.slice_of_stands (Nat.le_of_lt bound) stand
  rw [Int.natCast_add, size] at shown
  exact ⟨d, shown ▸ decodes.decodeAt_of_stands stand size, by omega, shown ▸ size, shown ▸ written⟩

/-- Two texts are the same exactly if they are written for the same words, whatever stands around
these. There is a text unless a word is too long to be written. -/
theorem disassembly_text_is_lossless {a a' : Int} (first : 0 ≤ a) (inside : a < words.length)
    (first' : 0 ≤ a') (inside' : a' < words'.length) :
    ∃ d d', (∀ k, decodeAt k words a = write k (Position.slice words a (a + d.size)) d) ∧
      (∀ k, decodeAt k words' a' = write k (Position.slice words' a' (a' + d'.size)) d') ∧
      a + d.size ≤ words.length ∧ a' + d'.size ≤ words'.length ∧
      (d.text = d'.text ↔
        d.size = d'.size ∧
          Position.slice words a (a + d.size) = Position.slice words' a' (a' + d'.size)) := by
  obtain ⟨d, decoded, room, length, written⟩ := exists_written first inside
  obtain ⟨d', decoded', room', length', written'⟩ := exists_written first' inside'
  refine ⟨d, d', decoded, decoded', room, room', ?_, ?_⟩
  · intro same
    have shown := written.words_unique (same ▸ written')
    exact ⟨length.symm.trans ((congrArg List.length shown).trans length'), shown⟩
  · rintro ⟨-, shown⟩
    exact written.text_unique (shown ▸ written')

/-- An immediate below zero and the id of no register, with other words around them. -/
theorem same_move_is_written_alike :
    ∃ d d', decodeAt .limited [0, 9, -5, 8] 1 = .ok d ∧ decodeAt .limited
      [9, -5, 8, 20] 0 = .ok d' ∧
      d.text = "move -5 %?8" ∧ d.text = d'.text ∧ d.size = d'.size ∧
      Position.slice [0, 9, -5, 8] 1 (1 + d.size) = Position.slice
        [9, -5, 8, 20] 0 (0 + d'.size) := by
  obtain ⟨d, d', decoded, decoded', -, -, alike⟩ :=
    @disassembly_text_is_lossless [0, 9, -5, 8] [9, -5, 8, 20] 1 0 (by decide) (by decide)
      (by decide) (by decide)
  have text : decodeAt .limited [0, 9, -5, 8] 1 = .ok ⟨"move -5 %?8", 3⟩ := by decide +kernel
  have text' : decodeAt .limited [9, -5, 8, 20] 0 = .ok ⟨"move -5 %?8", 3⟩ := by decide +kernel
  obtain rfl := eq_of_write ((decoded .limited).symm.trans text)
  obtain rfl := eq_of_write ((decoded' .limited).symm.trans text')
  exact ⟨_, _, text, text', rfl, rfl, alike.mp rfl⟩

end Disassembly

end BusMachine
