import BusMachine.Machine.State

/-! Micro-operations. One that fails changes nothing. -/
namespace BusMachine

/-- Main memory is wired to the external bus, the status memory to the internal bus. -/
inductive MemoryBank where
  | main
  | status
deriving DecidableEq, Repr

def MemoryBank.name : MemoryBank → String
  | .main => "MEM"
  | .status => "STATUS"

def MemoryBank.wire : MemoryBank → Wire
  | .main => .external
  | .status => .internal

inductive MicroOp where
  /-- internal bus ← register -/
  | give (r : Register)
  /-- register ← internal bus -/
  | take (r : Register)
  /-- demultiplexer ← register id -/
  | drive (id : Int)
  | giveSelected
  | takeSelected
  /-- internal bus ← word held by the control unit -/
  | place (v : Int)
  | toExternal
  | toInternal
  /-- address latch ← the bank's bus -/
  | select (k : MemoryBank)
  /-- the bank's bus ← cell at the latch -/
  | read (k : MemoryBank)
  /-- cell at the latch ← the bank's bus -/
  | store (k : MemoryBank)
  | aluLoad (side : AluSide)
  | aluDrive (side : AluSide)
  | aluTake (side : AluSide)
  | aluGive (side : AluSide)
  | operate (op : Alu.Operation)
  /-- flag ← what it says of the word on the internal bus -/
  | recordFlag (f : Flag)
  | giveFlag (f : Flag)
  /-- internal bus ← what a flag would say of the word on the internal bus -/
  | judge (f : Flag)
deriving DecidableEq, Repr

namespace Machine

def bank (m : Machine) : MemoryBank → Memory
  | .main => m.main
  | .status => m.status

def setBank (m : Machine) (k : MemoryBank) (b : Memory) : Machine :=
  match k with
  | .main => { m with main := b }
  | .status => { m with status := b }

def putInternal (m : Machine) (v : Int) : Machine :=
  { m with buses := m.buses.put .internal v }

def arithmetic (m : Machine) (f : Arithmetic → Arithmetic) : Machine :=
  let s := f ⟨m.alu, m.buses⟩
  { m with alu := s.alu, buses := s.buses }

def selected (m : Machine) : Except DatapathError Register :=
  match Register.ofId? m.demux with
  | some r => .ok r
  | none => .error (Fault.raised m.writing (.register m.demux))

def perform (m : Machine) : MicroOp → Except DatapathError Machine
  | .give r => .ok (m.putInternal (m.registers.get r))
  | .take r => .ok (m.setRegister r m.buses.internal)
  | .drive id => .ok { m with demux := id }
  | .giveSelected => m.selected.map (fun r => m.putInternal (m.registers.get r))
  | .takeSelected => m.selected.map (fun r => m.setRegister r m.buses.internal)
  | .place v => .ok (m.putInternal v)
  | .toExternal => .ok { m with buses := m.buses.toExternal }
  | .toInternal => .ok { m with buses := m.buses.toInternal }
  | .select k =>
    match (m.bank k).select k.name (m.buses.get k.wire) with
    | .ok b => .ok (m.setBank k b)
    | .error f => .error (f.raised m.writing)
  | .read k =>
    match (m.bank k).read with
    | .ok v => .ok { m with buses := m.buses.put k.wire v }
    | .error e => .error (.index e)
  | .store k =>
    match (m.bank k).store (m.buses.get k.wire) with
    | .ok b => .ok (m.setBank k b)
    | .error e => .error (.index e)
  | .aluLoad side => .ok (m.arithmetic (·.load side))
  | .aluDrive side => .ok (m.arithmetic (·.drive side))
  | .aluTake side => .ok (m.arithmetic (·.take side))
  | .aluGive side => .ok (m.arithmetic (·.give side))
  | .operate op => .ok (m.arithmetic (·.operate op))
  | .recordFlag f =>
    match m.flags.record m.buses.internal f with
    | .ok flags => .ok { m with flags := flags }
    | .error e => .error (.index e)
  | .giveFlag f =>
    match m.flags.get f.position with
    | .ok bit => .ok (m.putInternal (bitWord bit))
    | .error e => .error (.index e)
  | .judge f => .ok (m.putInternal (bitWord (f.holds m.buses.internal)))

end Machine

/-- What the control unit does to a machine. Where it fails, what was done before stays done. -/
abbrev Control := EStateM DatapathError Machine

namespace Control

def performAll : List MicroOp → Control Unit
  | [], m => .ok () m
  | op :: ops, m =>
    match m.perform op with
    | .ok m' => performAll ops m'
    | .error e => .error e m

end Control

end BusMachine
