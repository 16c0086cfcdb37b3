import BusMachine.Machine.MicroProgram
import BusMachine.Machine.Report

/-! The control unit. A fault stops the machine in the state the unfinished instruction left. -/
namespace BusMachine.Control

def enter (p : Phase) : Control Unit := modify (fun m => { m with phase := p })

def fetch : Control (Option StopReason) := do
  let m ← get
  if 0 ≤ m.registers.pc ∧ m.registers.pc < m.main.size then
    performAll MicroProgram.fetchInstruction
    return none
  else
    return some .outOfRange

def fetchOperand (kind : OperandKind) : Control Int := do
  performAll MicroProgram.readWord
  let word := (← get).buses.internal
  performAll ((MicroProgram.keeper? kind).toList.map .take)
  performAll MicroProgram.advance
  return word

def fetchOperands : List OperandKind → Control (List Int)
  | [] => return []
  | kind :: kinds => do
    let word ← fetchOperand kind
    let words ← fetchOperands kinds
    return word :: words

def execute (c : Opcode) : Control Unit := do
  let words ← fetchOperands c.kinds
  performAll (MicroProgram.body c words)

def decodeExecute : Control (Option StopReason) := do
  performAll [.give .ir]
  let word := (← get).buses.internal
  if word = haltWord then return some .halt
  match Opcode.ofWord? word with
  | none => return some .illegal
  | some c =>
    execute c
    return none

def traceInstruction (pc : Int) : Control Unit := do
  let m ← get
  if m.tracing then
    match m.instructionLine pc with
    | .ok line => set { m with trace := m.trace.push line }
    | .error e => throw e

def noteFault (m : Machine) (f : Fault) : Machine :=
  if m.tracing then { m with trace := m.trace.push (Machine.faultLine f) } else m

/-- Decodes and executes; a fault becomes a reason to stop, any other error breaks off the step. -/
def decodeExecuteCaught : Control (Option StopReason) := fun m =>
  match decodeExecute m with
  | .error (.fault f) m' => .ok (some StopReason.fault) (noteFault m' f)
  | outcome => outcome

def halt (r : StopReason) : Control Unit :=
  modify (fun m => { m with phase := .halted, stop := some r })

/-- The answer is the reason why the machine stopped. One that has stopped stays as it is. -/
def step : Control (Option StopReason) := do
  let start ← get
  if start.phase = .halted then return start.stop
  let pc := start.registers.pc
  enter .fetch
  let reason ← match ← fetch with
    | some r => pure (some r)
    | none => do
      traceInstruction pc
      enter .decodeExecute
      decodeExecuteCaught
  modify (fun m => { m with steps := m.steps + 1 })
  match reason with
  | some r => halt r
  | none => enter .fetch
  return reason

def runFor : Nat → Control StopReason
  | 0 => return .timeout
  | n + 1 => do
    match ← step with
    | some r => return r
    | none => runFor n

end BusMachine.Control

namespace BusMachine

/-- If no step stops the machine or fails, there is no outcome. -/
def Machine.runOn (m : Machine) : Option (EStateM.Result DatapathError Machine StopReason) :=
  match Control.step m with
  | .ok (some r) m' => some (.ok r m')
  | .ok none m' => m' |>.runOn
  | .error e m' => some (.error e m')
partial_fixpoint

def Control.run (limit : Option Int) (m : Machine) :
    Option (EStateM.Result DatapathError Machine StopReason) :=
  match limit with
  | some n => some (runFor n.toNat m)
  | none => m.runOn

end BusMachine
