import BusMachine.Proofs.Machine.Reachable

/-!
What holds of a machine whatever a host has done to it. A machine that has stopped stays as it is,
and where every number can be written no step and no run fails.
-/
namespace BusMachine

variable {m : Machine} {r : StopReason}

namespace Control

theorem runFor_of_halted (halted : m.phase = .halted) (stop : m.stop = some r) {n : Nat}
    (positive : 0 < n) :
    runFor n m = .ok r m := by
  cases n with
  | zero => cases positive
  | succ n => exact runFor_of_stops n (stop ▸ step_of_halted halted)

end Control

namespace Control

variable {size : Nat}

theorem runFor_of_total (n : Nat) (shape : m.WellFormed size) (total : m.writing = .total) :
    ∃ r m', runFor n m = .ok r m' := by
  induction n generalizing m with
  | zero => exact ⟨.timeout, m, rfl⟩
  | succ n ih =>
    obtain ⟨reason, next, stepped, shape', total'⟩ := step_of_total shape total
    cases reason with
    | some r => exact ⟨r, next, runFor_of_stops n stepped⟩
    | none =>
      obtain ⟨r, m', rest⟩ := ih shape' total'
      exact ⟨r, m', (runFor_of_goes_on n stepped).trans rest⟩

theorem step_error {e : DatapathError} {m' : Machine} (sound : m.Sound size)
    (failed : step m = .error e m') : e = .unwritable := by
  by_cases halted : m.phase = .halted
  · cases (step_of_halted halted).symm.trans failed
  rcases step_by_rules sound.shape halted with ⟨_, _, stepped, -⟩ | ⟨_, stepped, -⟩
  · cases stepped.symm.trans failed
  · cases stepped.symm.trans failed
    rfl

end Control

theorem Machine.Reachable.size_eq {n : Int} (reachable : m.Reachable n) :
    (m.main.size : Int) = n := by
  have main := reachable.sound.shape.main
  have cells : m.main.size = n.toNat := main.cells
  have latch := main.latch
  omega

end BusMachine
