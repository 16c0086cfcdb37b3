import Mathlib.Data.List.Basic
import BusMachine.Instruction.Disassembly
import BusMachine.Proofs.Instruction.Decoding

/-!
Instructions as words, and back. Every address of a list of words shows the halt word, a whole
instruction, or a word that is neither.
-/
namespace BusMachine

/-- An instruction with the words of its operands. -/
structure Encoded where
  opcode : Opcode
  operands : List Int
  count : operands.length = opcode.kinds.length

theorem intercalate_head? {sep x : List Char} (xs : List (List Char)) (full : x ≠ []) :
    (sep.intercalate (x :: xs)).head? = x.head? := by
  cases xs with
  | nil => rw [List.intercalate_singleton]
  | cons y ys =>
    rw [List.intercalate_cons_cons, List.append_assoc, List.head?_append_of_ne_nil _ full]

theorem Opcode.mnemonic_ne_nil (c : Opcode) : c.mnemonic.toList ≠ [] := by
  cases c <;> decide

namespace Encoded

def words (e : Encoded) : List Int := e.opcode.id :: e.operands

def text (e : Encoded) : String :=
  " ".intercalate (e.opcode.mnemonic :: List.zipWith OperandKind.textOf e.opcode.kinds e.operands)

theorem text_head? (e : Encoded) : e.text.toList.head? = e.opcode.mnemonic.toList.head? := by
  rw [text, String.toList_intercalate, List.map_cons]
  exact intercalate_head? _ e.opcode.mnemonic_ne_nil

theorem words_length (e : Encoded) : e.words.length = e.opcode.size := by
  rw [words, List.length_cons, e.count, Opcode.size, Nat.add_comm]

end Encoded

namespace Position

theorem read_of_getElem? {α : Type} {xs : List α} {a : Nat} {x : α} (at_a : xs[a]? = some x) :
    read xs a = .ok x := by
  have high := (List.getElem?_eq_some_iff.mp at_a).1
  have found : resolve? xs.length a = some a := by
    have front : ¬ (a : Int) < 0 := Int.not_lt.mpr (Int.natCast_nonneg a)
    simp [resolve?, front, high]
  simp only [read, locate, found, bind, Except.bind, at_a]
  rfl

theorem clamp_natCast {size i : Nat} (inside : i ≤ size) : clamp size i = i := by
  rw [clamp, if_neg (Int.not_lt.mpr (Int.natCast_nonneg i)), Int.toNat_natCast,
    Nat.min_eq_left inside]

theorem slice_of_stands {α : Type} {xs ys : List α} {a : Nat} (inside : a ≤ ys.length)
    (stand : xs <+: ys.drop a) :
    slice ys a (a + xs.length : Nat) = xs := by
  have room : a + xs.length ≤ ys.length := by
    have length := stand.length_le
    rw [List.length_drop] at length
    omega
  rw [slice, clamp_natCast inside, clamp_natCast room, List.drop_take, Nat.add_sub_cancel_left,
    ← List.prefix_iff_eq_take.mp stand]

end Position

namespace Disassembly

/-- What is written for the words from an address on. A word is shown as such if it is no opcode, or
if the words end before its operands do. -/
inductive Decodes (words : List Int) (a : Nat) : Decoded → Prop where
  | halt : words[a]? = some haltWord → Decodes words a ⟨"halt", 1⟩
  | unknown {w : Int} : words[a]? = some w → w ≠ haltWord → Opcode.ofWord? w = none →
      Decodes words a (plainWord w)
  | cut {c : Opcode} : words[a]? = some (c.id : Int) → words.length < a + c.size →
      Decodes words a (plainWord c.id)
  | whole (e : Encoded) : e.words <+: words.drop a → Decodes words a ⟨e.text, e.opcode.size⟩

variable {words : List Int} {a : Nat} {d : Decoded}

theorem getElem?_of_stands {w : Int} {ws : List Int} (stand : w :: ws <+: words.drop a) :
    words[a]? = some w ∧ a ≤ words.length := by
  obtain ⟨rest, split⟩ := stand
  have at_a : words[a]? = some w := by
    rw [← Nat.add_zero a, ← List.getElem?_drop, ← split]
    rfl
  exact ⟨at_a, Nat.le_of_lt (List.getElem?_eq_some_iff.mp at_a).1⟩

theorem drop_of_stands {w : Int} {ws : List Int} (stand : w :: ws <+: words.drop a) :
    ws <+: words.drop (a + 1) := by
  obtain ⟨rest, split⟩ := stand
  rw [← List.drop_drop, ← split]
  exact ⟨rest, rfl⟩

/-- Texts that are written one after the other are written together. -/
theorem write_bind {α β γ : Type} {k : Writing} {ws ws' : List Int} {x : α} {y : β}
    (f : α → β → γ) :
    (do let a ← write k ws x; let b ← write k ws' y; return f a b) =
      write k (ws ++ ws') (f x y) := by
  unfold write Writing.require
  rw [List.all_append]
  cases ws.all k.allows <;> cases ws'.all k.allows <;> rfl

theorem write_of_all {α : Type} {k : Writing} {ws : List Int} (all : ∀ w ∈ ws, k.allows w = true)
    (made : α) :
    write k ws made = .ok made := by
  rw [write, Writing.require_of_all all]
  rfl

theorem write_total {α : Type} (ws : List Int) (made : α) : write .total ws made = .ok made :=
  write_of_all (fun _ _ => rfl) made

theorem write_of_not {α : Type} {k : Writing} {ws : List Int} {w : Int} (mem : w ∈ ws)
    (long : k.allows w = false) (made : α) : write k ws made = .error (.numeral .unwritable) := by
  rw [write, Writing.require_of_not mem long]
  rfl

/-- A word that every host writes makes no difference. -/
theorem write_cons {α : Type} {k : Writing} {w : Int} (writable : Numeral.isWritable w = true)
    (ws : List Int) (made : α) : write k (w :: ws) made = write k ws made := by
  rw [write, Writing.require, List.all_cons, k.allows_of_isWritable writable, Bool.true_and]
  rfl

theorem write_map {α β : Type} {k : Writing} {ws : List Int} {x : α} (f : α → β) :
    (write k ws x >>= fun a => .ok (f a)) = write k ws (f x) := by
  unfold write Writing.require
  cases ws.all k.allows <;> rfl

theorem take_one_drop {w : Int} (at_a : words[a]? = some w) : (words.drop a).take 1 = [w] := by
  rw [List.take_one, List.head?_drop, at_a]
  rfl

theorem operands_of_stands {k : Writing} {kinds : List OperandKind} {ws : List Int} {a : Nat}
    (count : ws.length = kinds.length) (stand : ws <+: words.drop a) :
    operands k words a kinds = write k ws (List.zipWith OperandKind.textOf kinds ws) := by
  induction kinds generalizing ws a with
  | nil =>
    obtain rfl := List.eq_nil_of_length_eq_zero count
    rfl
  | cons kind kinds ih =>
    obtain ⟨w, ws, rfl⟩ := List.exists_cons_of_length_eq_add_one count
    have texts := ih (Nat.succ.inj count) (drop_of_stands stand)
    rw [Int.natCast_succ] at texts
    rw [operands, wordAt, Position.read_of_getElem? (getElem?_of_stands stand).1, texts]
    exact write_bind (· :: ·)

/-- The words at an address are decoded if all of them can be written. -/
theorem Decodes.decodeAt (h : Decodes words a d) (k : Writing) :
    decodeAt k words a = write k ((words.drop a).take d.size) d := by
  cases h with
  | halt at_a =>
    rw [take_one_drop at_a, write_cons isWritable_haltWord]
    simp only [Disassembly.decodeAt, wordAt, Position.read_of_getElem? at_a, bind, Except.bind,
      Except.mapError, if_true]
    rfl
  | unknown at_a other unknown =>
    rw [plainWord, take_one_drop at_a]
    simp only [Disassembly.decodeAt, wordAt, Position.read_of_getElem? at_a, bind, Except.bind,
      Except.mapError, if_neg other, unknown]
    rfl
  | @cut c at_a short =>
    have short : (words.length : Int) < a + c.size := by omega
    rw [plainWord, take_one_drop at_a, write_cons c.isWritable_id]
    simp only [Disassembly.decodeAt, wordAt, Position.read_of_getElem? at_a, bind, Except.bind,
      Except.mapError, if_neg c.id_ne_haltWord, Opcode.ofWord?_id, if_pos short]
    rfl
  | whole e stand =>
    obtain ⟨at_a, inside⟩ := getElem?_of_stands stand
    have room : ¬ (words.length : Int) < a + e.opcode.size := by
      have length := stand.length_le
      rw [e.words_length, List.length_drop] at length
      omega
    have texts := operands_of_stands (k := k) e.count (drop_of_stands stand)
    rw [Int.natCast_succ] at texts
    have shown : (words.drop a).take e.opcode.size = e.words := by
      rw [← e.words_length, ← List.prefix_iff_eq_take.mp stand]
    rw [shown, Encoded.words, write_cons e.opcode.isWritable_id]
    simp only [Disassembly.decodeAt, wordAt, Position.read_of_getElem? at_a, bind, Except.bind,
      Except.mapError, if_neg e.opcode.id_ne_haltWord, Opcode.ofWord?_id, if_neg room, texts]
    exact write_map (fun texts =>
      Decoded.mk (" ".intercalate (e.opcode.mnemonic :: texts)) e.opcode.size)

theorem Decodes.decodeAt_of_stands {ws : List Int} (h : Decodes words a d)
    (stand : ws <+: words.drop a) (size : ws.length = d.size) (k : Writing) :
    Disassembly.decodeAt k words a = write k ws d := by
  rw [h.decodeAt, ← size, ← List.prefix_iff_eq_take.mp stand]

/-- No opcode is too long to be written, so a word that is too long stands alone. -/
theorem decodeAt_of_long {w : Int} (at_a : words[a]? = some w)
    (long : Numeral.isWritable w = false) :
    Disassembly.decodeAt .limited words a = .error (.numeral .unwritable) := by
  have other : w ≠ haltWord := by
    rintro rfl
    cases isWritable_haltWord.symm.trans long
  have unknown : Opcode.ofWord? w = none := by
    refine Option.eq_none_iff_forall_ne_some.mpr fun c found => ?_
    rw [Opcode.eq_id_of_ofWord? found] at long
    cases c.isWritable_id.symm.trans long
  rw [(Decodes.unknown at_a other unknown).decodeAt, plainWord, take_one_drop at_a]
  exact write_of_not (List.mem_singleton.mpr rfl) ((Writing.limited_allows w).trans long) _

theorem exists_decodes (inside : a < words.length) : ∃ d, Decodes words a d := by
  have at_a : words[a]? = some words[a] := List.getElem?_eq_getElem inside
  by_cases halt : words[a] = haltWord
  · exact ⟨_, .halt (at_a.trans (congrArg some halt))⟩
  · cases opcode : Opcode.ofWord? words[a] with
    | none => exact ⟨_, .unknown at_a halt opcode⟩
    | some c =>
      have id : words[a] = c.id := Opcode.eq_id_of_ofWord? opcode
      by_cases short : words.length < a + c.size
      · exact ⟨_, .cut (at_a.trans (congrArg some id)) short⟩
      · have count : ((words.drop (a + 1)).take c.kinds.length).length = c.kinds.length := by
          rw [List.length_take, List.length_drop]
          simp only [Opcode.size] at short
          omega
        refine ⟨_, .whole ⟨c, (words.drop (a + 1)).take c.kinds.length, count⟩ ?_⟩
        refine ⟨(words.drop (a + 1)).drop c.kinds.length, ?_⟩
        rw [Encoded.words, List.cons_append, List.take_append_drop, ← id, List.getElem_cons_drop]

end Disassembly

end BusMachine
