import BusMachine.Executable
import BusMachine.Machine.State

/-! Loading puts a whole program at address 0 of a machine that is otherwise reset. -/
namespace BusMachine

inductive LoadError where
  | text (e : ExecutableError)
  | tooLong (words size : Nat)
deriving DecidableEq, Repr

def LoadError.message : LoadError → String
  | .text e => e.message
  | .tooLong words size =>
    "Program of " ++ toString words ++ " words does not fit in " ++ toString size ++ "-word memory"

namespace Machine

def load (m : Machine) (words : List Int) : Except LoadError Machine :=
  let ready := m.reset
  match ready.main.load words 0 with
  | .ok main => .ok { ready with main := main }
  | .error _ => .error (.tooLong words.length m.main.size)

def loadFile (m : Machine) (text : String) : Except LoadError Machine :=
  match Executable.ofFileText text with
  | .ok words => m.load words
  | .error e => .error (.text e)

end Machine

end BusMachine
