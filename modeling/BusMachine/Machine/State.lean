import BusMachine.Datapath.Alu
import BusMachine.Datapath.Flags
import BusMachine.Datapath.Memory
import BusMachine.Datapath.Register

namespace BusMachine

structure Registers where
  ir : Int := 0
  reg0 : Int := 0
  reg1 : Int := 0
  reg2 : Int := 0
  reg3 : Int := 0
  pc : Int := 0
  stktop : Int := 0
  stkbot : Int := 0
deriving DecidableEq, Repr

namespace Registers

def get (s : Registers) : Register → Int
  | .ir => s.ir
  | .reg0 => s.reg0
  | .reg1 => s.reg1
  | .reg2 => s.reg2
  | .reg3 => s.reg3
  | .pc => s.pc
  | .stktop => s.stktop
  | .stkbot => s.stkbot

def set (s : Registers) (r : Register) (v : Int) : Registers :=
  match r with
  | .ir => { s with ir := v }
  | .reg0 => { s with reg0 := v }
  | .reg1 => { s with reg1 := v }
  | .reg2 => { s with reg2 := v }
  | .reg3 => { s with reg3 := v }
  | .pc => { s with pc := v }
  | .stktop => { s with stktop := v }
  | .stkbot => { s with stkbot := v }

theorem get_set (s : Registers) (r q : Register) (v : Int) :
    (s.set r v).get q = if q = r then v else s.get q := by
  cases r <;> cases q <;> rfl

end Registers

inductive StopReason where
  | halt
  | illegal
  | outOfRange
  | fault
  | timeout
deriving DecidableEq, Repr

def StopReason.name : StopReason → String
  | .halt => "HALT"
  | .illegal => "ILLEGAL"
  | .outOfRange => "OUT_OF_RANGE"
  | .fault => "FAULT"
  | .timeout => "TIMEOUT"

inductive Phase where
  | fetch
  | decodeExecute
  | halted
deriving DecidableEq, Repr

def Phase.name : Phase → String
  | .fetch => "FETCH"
  | .decodeExecute => "DECODE_EXECUTE"
  | .halted => "HALTED"

structure Machine where
  registers : Registers := {}
  flags : Flags := .cleared 2
  buses : Buses := {}
  alu : Alu := {}
  /-- the register id the demultiplexer is driven with -/
  demux : Int := 0
  main : Memory
  /-- two cells that hold the two continuations of a branch -/
  status : Memory := .blank 2
  phase : Phase := .fetch
  stop : Option StopReason := none
  steps : Nat := 0
  tracing : Bool := false
  trace : Array String := #[]
  /-- the numbers that the host writes, the same as long as there is the machine -/
  writing : Writing := .limited
deriving DecidableEq, Repr

namespace Machine

def ofSize (host : Host) (size : Int) : Except MemoryError Machine :=
  (Memory.ofSize host size).map (fun main => { main := main, writing := host.writing })

/-- Everything is cleared but the trace switch. -/
def reset (m : Machine) : Machine :=
  { main := m.main.clear
    flags := m.flags.reset
    status := m.status.clear
    tracing := m.tracing
    writing := m.writing }

def setRegister (m : Machine) (r : Register) (v : Int) : Machine :=
  { m with registers := m.registers.set r v }

def setFlag (m : Machine) (i : Int) (bit : Bool) : Except IndexError Machine :=
  (m.flags.set i bit).map (fun f => { m with flags := f })

def clearTrace (m : Machine) : Machine := { m with trace := #[] }

end Machine

end BusMachine
