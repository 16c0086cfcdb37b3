import BusMachine.Proofs.Assembly.Boundaries
import BusMachine.Proofs.Assembly.History
import BusMachine.Proofs.Instruction.Decoding
import BusMachine.Proofs.Text.Writable

/-!
The words of an executable can be written if the memory size can for which it was assembled: they
are numbers of opcodes and registers, immediates that were read, and addresses inside memory.
-/
namespace BusMachine

namespace ObjectProgram.Assembled

variable {p : ObjectProgram} {size : Int} {words : List Int} {codes : List (List Int)}

theorem isWritable_value (h : p.Assembled size words codes)
    (writable : Numeral.isWritable size = true) {o : Operand} {v : Int}
    (resolves : p.Resolves size o v) : Numeral.isWritable v = true := by
  have fits := h.fits
  have base := variableBase_le p size
  cases resolves with
  | @register _ r _ => exact r.isWritable_id
  | literal read => exact Numeral.isWritable_of_read read
  | @declared name k named =>
    obtain ⟨bound, -⟩ := List.getElem?_eq_some_iff.mp named
    have base : p.variableBase size = size - p.variableNames.length := rfl
    exact Numeral.isWritable_of_le (by omega) writable
  | label mem =>
    have range := h.boundary_range (h.labels _ _ mem).2
    exact Numeral.isWritable_of_le (by omega) writable

theorem isWritable (h : p.Assembled size words codes) (writable : Numeral.isWritable size = true) :
    ∀ w ∈ words, Numeral.isWritable w = true := by
  have fits := h.fits
  have below := variableBase_le p size
  have base : Numeral.isWritable (p.variableBase size) = true :=
    Numeral.isWritable_of_le (by omega) writable
  intro w mem
  rw [h.split, List.append_assoc] at mem
  rcases List.mem_append.mp mem with mem | mem
  · simp only [prologue, List.mem_cons, List.not_mem_nil, or_false] at mem
    rcases mem with rfl | rfl | rfl | rfl | rfl | rfl
    · exact Opcode.isWritable_id _
    · exact base
    · exact Register.isWritable_id _
    · exact Opcode.isWritable_id _
    · exact base
    · exact Register.isWritable_id _
  · rcases List.mem_append.mp mem with mem | mem
    · obtain ⟨code, hc, mem⟩ := List.mem_flatten.mp mem
      obtain ⟨k, bound, rfl⟩ := List.getElem_of_mem hc
      obtain ⟨values, eq, resolved⟩ := h.encoded.get (h.encoded.length_eq ▸ bound) bound
      rw [List.get_eq_getElem] at eq
      rw [eq] at mem
      rcases List.mem_cons.mp mem with rfl | mem
      · exact Opcode.isWritable_id _
      · obtain ⟨j, inside, rfl⟩ := List.getElem_of_mem mem
        exact h.isWritable_value writable (resolved.get (resolved.length_eq ▸ inside) inside)
    · obtain rfl := List.mem_singleton.mp mem
      exact Numeral.isWritable_of_small (by decide)

end ObjectProgram.Assembled

theorem isWritable_of_assemble {source : String} {size : Int} {words : List Int}
    (assembled : assemble source size = .ok words) (writable : Numeral.isWritable size = true) :
    ∀ w ∈ words, Numeral.isWritable w = true := by
  obtain ⟨p, parsed, linked, -⟩ := Assembler.assemble_ok assembled
  obtain ⟨d, finished, clean, rfl⟩ := Assembler.parse_ok parsed
  obtain ⟨codes, linked⟩ := ObjectProgram.assembled_of_link finished clean linked
  exact linked.isWritable writable

namespace Assembler

/-- The program of one return. It has no variables, so that its base is the memory size. -/
def oneReturn : ObjectProgram := { instructions := [⟨.ret, [], 1, "ret", 0⟩] }

def oneReturnWords (size : Int) : List Int := [9, size, 7, 9, size, 6, 20, -1]

theorem assemble_oneReturn {size : Int} (room : 8 ≤ size) :
    ((ofSize size).assemble "ret").2 = .ok (oneReturnWords size) ∧
      ((ofSize size).assemble "ret").1.outputs = (some oneReturn, oneReturnWords size) := by
  have parsed : ((ofSize size).parse "ret").2 = .ok oneReturn := by
    rw [parse_answer _ (ofSize 64)]
    decide +kernel
  have base : oneReturn.variableBase size = size := Int.sub_zero size
  have linked : oneReturn.link size = .ok (oneReturnWords size) := by
    unfold ObjectProgram.link
    rw [base]
    exact if_pos room
  have link : ((ofSize size).parse "ret").1.link oneReturn = .ok (oneReturnWords size) := by
    rw [Assembler.link, parse_memorySize]
    exact linked
  rw [assemble_of_parse_ok parsed, install_of_ok link]
  exact ⟨rfl, rfl⟩

end Assembler

end BusMachine
