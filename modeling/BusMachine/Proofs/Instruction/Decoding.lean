import BusMachine.Datapath.Register
import BusMachine.Instruction.Opcode
import BusMachine.Proofs.Text.Writable

/-!
Opcodes are the words from 0 to 20, each of another instruction. A word names a register if it is
the id of one. All of them are short enough to be written.
-/
namespace BusMachine

theorem Register.id_of_ofId? {id : Int} {r : Register} (found : ofId? id = some r) :
    (r.id : Int) = id := by
  unfold ofId? at found
  simpa using List.find?_some found

theorem Register.isWritable_id (r : Register) : Numeral.isWritable r.id = true :=
  Numeral.isWritable_of_small (by cases r <;> decide)

theorem isWritable_haltWord : Numeral.isWritable haltWord = true :=
  Numeral.isWritable_of_small (by decide)

namespace Opcode

theorem isWritable_id (c : Opcode) : Numeral.isWritable c.id = true :=
  Numeral.isWritable_of_small (by cases c <;> decide)

theorem id_range (c : Opcode) : 0 ≤ (c.id : Int) ∧ (c.id : Int) ≤ 20 := by
  cases c <;> decide

theorem id_ne_haltWord (c : Opcode) : (c.id : Int) ≠ haltWord := by
  cases c <;> decide

theorem eq_of_id_eq {c d : Opcode} (same : (c.id : Int) = d.id) : c = d :=
  Option.some.inj ((ofWord?_id c).symm.trans ((congrArg ofWord? same).trans (ofWord?_id d)))

theorem eq_id_of_ofWord? {w : Int} {c : Opcode} (found : ofWord? w = some c) : w = c.id := by
  unfold ofWord? at found
  have id : (c.id : Int) = w := by simpa using List.find?_some found
  exact id.symm

theorem range_of_ofWord?_none {w : Int} (unknown : ofWord? w = none) : w < 0 ∨ 20 < w := by
  by_cases range : 0 ≤ w ∧ w ≤ 20
  · have ids : ∀ k ≤ 20, ∃ c ∈ all, c.id = k := by decide
    obtain ⟨c, -, eq⟩ := ids w.toNat (by omega)
    have word : w = c.id := by omega
    rw [word, ofWord?_id] at unknown
    cases unknown
  · omega

end Opcode

end BusMachine
