import BusMachine.Proofs.Machine.BoundedRuns
import BusMachine.Proofs.Machine.Startup

/-!
Programs that only go forward. Whatever the data are, every step brings control to an instruction
further down, so a run is over when as many steps have been made as there are instructions.
-/
namespace BusMachine

open ObjectProgram Grammar

variable {p : ObjectProgram} {size : Int} {words : List Int} {codes : List (List Int)}
  {i : Instruction}
  {before after : List Instruction} {source : String}

/-- A program without calls and returns that does not write the program counter, nor any cell but
those of variables, and jumps only to labels on later lines. The destination of an instruction is
its last operand. -/
structure ObjectProgram.GoesForward (p : ObjectProgram) (source : String) : Prop where
  opcodes : ∀ i ∈ p.instructions, i.opcode ≠ .call ∧ i.opcode ≠ .ret
  destinations : ∀ i ∈ p.instructions, ∀ name, i.operands.getLast? = some (.register name) →
    Register.named? name ≠ some .pc
  stores : ∀ i ∈ p.instructions, i.opcode.stores = true → ∀ name, .symbol name ∈ i.operands →
    name ∈ p.variableNames
  targets : ∀ i ∈ p.instructions, i.opcode.jumps = true → ∀ name, .symbol name ∈ i.operands →
    ∃ l ∈ Statement.ofSource source, Label l.text name ∧ i.line < l.line

/-- The names that jumps go to are no variables, and as labels they stand behind the jump. -/
def ObjectProgram.JumpsAhead (p : ObjectProgram) : Prop :=
  ∀ before i after, p.instructions = before ++ i :: after → i.opcode.jumps = true →
    ∀ name, .symbol name ∈ i.operands → name ∉ p.variableNames ∧
      ∀ offset, (name, offset) ∈ p.labels →
        ∃ front back, p.instructions = front ++ back ∧ offset = wordCount front ∧ back <:+ after

/-- A label on a later line than an instruction stands behind it. -/
theorem Statement.Marks.ahead {l : Statement} {offset : Int} {is : List Instruction}
    (marks : l.Marks offset is) (parts : is = before ++ i :: after) (later : i.line < l.line) :
    ∃ front back, is = front ++ back ∧ offset = wordCount front ∧ back <:+ after := by
  obtain ⟨front, back, split, sum, -, behind⟩ := marks
  refine ⟨front, back, split, sum, ?_⟩
  have passed : i ∉ back := fun mem => absurd (behind i mem) (by omega)
  rw [parts] at split
  rcases List.append_eq_append_iff.mp split with ⟨middle, -, rest⟩ | ⟨middle, -, rest⟩
  · cases middle with
    | nil =>
      have mem : i ∈ [] ++ back := rest ▸ List.mem_cons_self ..
      exact absurd mem passed
    | cons j middle =>
      cases rest
      exact List.suffix_append middle back
  · have mem : i ∈ back := by simp [rest]
    exact absurd mem passed

theorem Draft.jumpsAhead {d : Draft} (finished : ofSource source = (d, none))
    (clean : d.errors = []) (forward : d.program.GoesForward source) : d.program.JumpsAhead := by
  obtain ⟨steps, records⟩ := records_ofSource finished clean
  have good := (reflects_ofSource finished).clean_iff.mp clean
  intro before i after parts jumps name mem
  have member : i ∈ d.program.instructions := by simp [parts]
  obtain ⟨l, hl, label, later⟩ := forward.targets i member jumps name mem
  rw [← divided_append, List.mem_append] at hl
  have body : l ∈ (divided source).2 :=
    hl.resolve_left (fun declared => label.not_declaration ((divides source).declared l declared))
  refine ⟨undeclared_of_records records good body label, ?_⟩
  intro offset marked
  obtain ⟨l', hl', label', marks⟩ := records.labels name offset marked
  obtain rfl := labels_unique good body hl' label label'
  exact marks.ahead parts later

namespace Visible

variable {v : Visible} {a : Nat} {values : List Int}

theorem Boots.keep (h : v.Boots size words a) (v' : Visible) (cells : v'.cells = v.cells) {b : Nat}
    (counter : v'.registers.pc = b) : v'.Boots size words b where
  cells := cells ▸ h.cells
  code k w at_k := by
    have same : v'.read k = v.read k := by simp only [read, cells]
    exact same.trans (h.code k w at_k)
  counter := counter

theorem Boots.write (h : v.Boots size words a) {t : Int} (x : Int) (above : words.length ≤ t) :
    (v.write t x).Boots size words a where
  cells := by simp [h.cells]
  code k w at_k := by
    have bound := (List.getElem?_eq_some_iff.mp at_k).1
    rw [read_write_ne (by omega) (by omega) (by omega)]
    exact h.code k w at_k
  counter := h.counter

/-- The program is in place, and of its instructions these lie ahead of control. -/
def Faces (p : ObjectProgram) (size : Int) (words : List Int) (ahead : List Instruction)
    (v : Visible) : Prop :=
  ∃ before, p.instructions = before ++ ahead ∧ v.Boots size words (6 + wordCount before)

theorem target_ahead (jumpsAhead : p.JumpsAhead) (parts : p.instructions = before ++ i :: after)
    (stands : p.Stands size words i values a) (jumps : i.opcode.jumps = true) {t : Int}
    (last : values.getLast? = some t) :
    ∃ front back, p.instructions = front ++ back ∧ t = (6 + wordCount front : Nat) ∧
      back <:+ after := by
  obtain ⟨o, ho, kind, resolves⟩ := stands.last last
  have memory : o.kind = .memory := Option.some.inj (kind.symm.trans (Opcode.last_of_jumps jumps))
  obtain ⟨name, rfl, resolved⟩ := resolves.symbol_eq memory
  obtain ⟨undeclared, behind⟩ :=
    jumpsAhead before i after parts jumps name (List.mem_of_getLast? ho)
  rcases resolved with declared | ⟨offset, label, eq⟩
  · exact absurd declared.1 undeclared
  · obtain ⟨front, back, split, sum, suffix⟩ := behind offset label
    refine ⟨front, back, split, ?_, suffix⟩
    rw [eq, sum, prologueLength_eq]
    omega

/-- Whichever way an instruction goes, what then lies ahead are at most the instructions
behind it. -/
theorem Faces.outcome {w : Visible} (h : v.Boots size words (6 + wordCount before + i.opcode.size))
    (assembled : p.Assembled size words codes) (forward : p.GoesForward source)
    (jumpsAhead : p.JumpsAhead) (parts : p.instructions = before ++ i :: after)
    (stands : p.Stands size words i values (6 + wordCount before))
    (outcome : Outcome i.opcode values v w) :
    ∃ back, back <:+ after ∧ w.Faces p size words back ∧
      (i.opcode.jumps = false → back = after) := by
  have goes_on {w : Visible} (next : w.Boots size words (6 + wordCount before + i.opcode.size)) :
      ∃ back, back <:+ after ∧ w.Faces p size words back ∧
        (i.opcode.jumps = false → back = after) := by
    refine ⟨after, List.suffix_refl after, ⟨before ++ [i], by simp [parts], ?_⟩, fun _ => rfl⟩
    simpa [assembled.size_eq stands.mem, Nat.add_assoc] using next
  cases outcome with
  | @register v' t x kind last registers cells =>
    obtain ⟨name, r, named, found, moved⟩ := moved_to_named stands kind last
    have other : Register.pc ≠ r :=
      fun same => forward.destinations i stands.mem name named (same ▸ found)
    have counter : (v'.setRegister r x).registers.pc = v.registers.pc := by
      rw [← registers]
      exact (Registers.get_set v'.registers r .pc x).trans (if_neg other)
    rw [moved]
    exact goes_on (h.keep (v'.setRegister r x) cells (counter.trans h.counter))
  | @store v' t x stores last registers cells =>
    have above := stored_above assembled (forward.stores i stands.mem stores) stands stores last
    have kept : v'.Boots size words (6 + wordCount before + i.opcode.size) :=
      h.keep v' cells (registers ▸ h.counter)
    exact goes_on (kept.write x (Int.le_trans assembled.fits above))
  | stay => exact goes_on h
  | @jump t jumps last =>
    obtain ⟨front, back, split, at_front, suffix⟩ := target_ahead jumpsAhead parts stands jumps last
    exact ⟨back, suffix, ⟨front, split, h.keep (v.setRegister .pc t) rfl at_front⟩, by simp [jumps]⟩
  | call is_call _ => exact absurd is_call (forward.opcodes i stands.mem).1
  | ret is_ret => exact absurd is_ret (forward.opcodes i stands.mem).2

end Visible

namespace Control

variable {m : Machine} {ahead : List Instruction}

end Control

end BusMachine
