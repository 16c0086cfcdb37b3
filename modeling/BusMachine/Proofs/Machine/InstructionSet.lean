import BusMachine.Proofs.Machine.Reachable

/-!
The control unit against the instruction set, on every machine that a host can make. A step over an
instruction that is permitted does what the instruction set says and nothing else that a program
could see; any other step stops the machine for the reason that the rules give. Numbers of too many
digits are the limit: a trace line or a fault that holds one breaks the step off.
-/
namespace BusMachine

variable {m : Machine}

/-- A machine of four cells that is about to increment the register of an id. -/
def incrementsRegister (id : Int) : Machine :=
  (HostOperation.load [10, id]).after { main := .blank 4 }

theorem incrementsRegister_reachable (id : Int) : (incrementsRegister id).Reachable 4 :=
  .after _ (.new {} rfl)

theorem incrementsRegister_running (id : Int) : (incrementsRegister id).phase ≠ .halted :=
  Phase.noConfusion

theorem incrementsRegister_holds (id : Int) :
    (incrementsRegister id).visible.Holds .incReg [id] := by
  refine ⟨rfl, Int.le_refl 0, (by decide : (2 : Int) ≤ 4), rfl, ?_⟩
  intro i x at_i
  match i, at_i with
  | 0, at_i => cases at_i; rfl

/-- No register has an id that is too long to be written, and the fault is not reported. -/
theorem step_of_unwritable_id {id : Int} (long : Numeral.isWritable id = false) :
    ∃ m', Control.step (incrementsRegister id) = .error .unwritable m' ∧
      (incrementsRegister id).BrokenOff m' ∧ m'.phase = .decodeExecute ∧
      (incrementsRegister id).visible.Step (some .fault) m'.visible := by
  have unnamed : ¬(0 ≤ id ∧ id < 8) := by
    intro named
    rw [Numeral.isWritable_of_small (by omega)] at long
    cases long
  have fault : (incrementsRegister id).visible.fault? .incReg [id] = some (.register id) := by
    simp only [Visible.fault?, Visible.needs, Visible.denied?, List.findSome?_cons, if_neg unnamed]
  have faulting := Visible.Faulting.refused (incrementsRegister_holds id) fault
  have shape := (incrementsRegister_reachable id).sound.shape
  rcases Control.step_by_rules shape (incrementsRegister_running id) with
    ⟨_, _, _, _, _, _, reported⟩ | ⟨m', stepped, -, broken, fails⟩
  · exact absurd ⟨_, _, faulting, long⟩ reported
  · cases fails with
    | line line => exact absurd line (Machine.not_lineTooLong_of_untraced rfl)
    | fault _ faulting _ phase => exact ⟨m', stepped, broken, phase, faulting.step⟩

end BusMachine
