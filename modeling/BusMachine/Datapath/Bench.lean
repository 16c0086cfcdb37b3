import BusMachine.Datapath.Alu
import BusMachine.Datapath.Flags
import BusMachine.Datapath.Memory

/-! A bench on which components are wired to buses by name and driven one transfer at a time. -/
namespace BusMachine

structure WiredRegister where
  name : String
  outerBus : String := "internal"
  innerBus : String := "internal"
  value : Int := 0

def WiredRegister.text (r : WiredRegister) : Except NumeralError String :=
  Writing.limited.require [r.value] ("Register(" ++ r.name ++ "=" ++ toString r.value ++ ")")

structure WiredFlags where
  flags : Flags
  bus : String

/-- A selector that passes on its value as long as it numbers one of its outputs. -/
structure Demux where
  outputs : Int
  value : Int := 0

def Demux.selected (d : Demux) : Except DatapathError Int :=
  if 0 ≤ d.value ∧ d.value < d.outputs then .ok d.value
  else .error (Fault.raised .limited (.register d.value))

structure Bank where
  name : String
  bus : String
  memory : Memory

namespace Bank

def ofSize (host : Host) (size : Int) (bus name : String) : Except DatapathError Bank :=
  match Memory.ofSize host size with
  | .ok m => .ok ⟨name, bus, m⟩
  | .error e => .error (.memory e)

def select (k : Bank) (b : Buses) : Except DatapathError Bank := do
  let w ← Wire.named k.bus
  match k.memory.select k.name (b.get w) with
  | .ok m => .ok { k with memory := m }
  | .error f => .error (f.raised .limited)

def read (k : Bank) (b : Buses) : Except DatapathError Buses := do
  let w ← Wire.named k.bus
  match k.memory.read with
  | .ok v => .ok (b.put w v)
  | .error e => .error (.index e)

def store (k : Bank) (b : Buses) : Except DatapathError Bank := do
  let w ← Wire.named k.bus
  match k.memory.store (b.get w) with
  | .ok m => .ok { k with memory := m }
  | .error e => .error (.index e)

def peek (k : Bank) (a : Int) : Except DatapathError Int :=
  (k.memory.peek k.name a).mapError (Fault.raised .limited)

def poke (k : Bank) (a v : Int) : Except DatapathError Bank :=
  match k.memory.poke k.name a v with
  | .ok m => .ok { k with memory := m }
  | .error f => .error (f.raised .limited)

def load (k : Bank) (words : List Int) (base : Int) : Except DatapathError Bank :=
  match k.memory.load words base with
  | .ok m => .ok { k with memory := m }
  | .error e => .error (.memory e)

def clear (k : Bank) : Bank := { k with memory := k.memory.clear }

def dump (k : Bank) (start : Int) (length : Option Int) (perRow : Int) :
    Except DatapathError String :=
  (k.memory.dump .limited start length perRow).mapError .memory

end Bank

structure Bench where
  buses : Buses := {}
  registers : Array WiredRegister
  flags : WiredFlags
  demux : Demux
  alu : Alu := {}
  banks : Array Bank

namespace Bench

abbrev Action := EStateM DatapathError Bench

def attempt {α : Type} (f : Bench → Except DatapathError α) : Action α := do
  match f (← get) with
  | .ok a => return a
  | .error e => throw e

def put (bus : String) (v : Int) : Action Unit := do
  let w ← attempt (fun _ => Wire.named bus)
  modify (fun b => { b with buses := b.buses.put w v })

def get (bus : String) : Action Int :=
  attempt (fun b => (Wire.named bus).map b.buses.get)

def toExternal : Action Unit := modify (fun b => { b with buses := b.buses.toExternal })

def toInternal : Action Unit := modify (fun b => { b with buses := b.buses.toInternal })

def resetBuses : Action Unit := modify (fun b => { b with buses := {} })

def register (b : Bench) (i : Nat) : WiredRegister := b.registers.getD i { name := "" }

def takeRegister (side : WiredRegister → String) (i : Nat) : Action Unit := do
  let v ← attempt (fun b => (Wire.named (side (b.register i))).map b.buses.get)
  modify (fun b => { b with registers := b.registers.modify i ({ · with value := v }) })

def giveRegister (side : WiredRegister → String) (i : Nat) : Action Unit := do
  let w ← attempt (fun b => Wire.named (side (b.register i)))
  modify (fun b => { b with buses := b.buses.put w (b.register i).value })

def getFlag (i : Int) : Action Bool :=
  attempt (fun b => (b.flags.flags.get i).mapError .index)

def setFlag (i : Int) (bit : Bool) : Action Unit := do
  let f ← attempt (fun b => (b.flags.flags.set i bit).mapError .index)
  modify (fun b => { b with flags := { b.flags with flags := f } })

def recordFlag (result : Int) (flag : Flag) : Action Unit :=
  setFlag flag.position (flag.holds result)

def updateFlags : Action Unit := do
  let v ← attempt (fun b => (Wire.named b.flags.bus).map b.buses.get)
  recordFlag v .zero
  recordFlag v .negative

def giveFlag (i : Int) : Action Unit := do
  let w ← attempt (fun b => Wire.named b.flags.bus)
  let bit ← getFlag i
  modify (fun b => { b with buses := b.buses.put w (bitWord bit) })

def viewFlags : Action (Bool × Bool) := do
  let zero ← getFlag Flag.zero.position
  let negative ← getFlag Flag.negative.position
  return (zero, negative)

def resetFlags : Action Unit :=
  modify (fun b => { b with flags := { b.flags with flags := b.flags.flags.reset } })

def setDemux (v : Int) : Action Unit :=
  modify (fun b => { b with demux := { b.demux with value := v } })

def selected : Action Int := attempt (fun b => b.demux.selected)

def compute (f : Arithmetic → Arithmetic) : Action Unit :=
  modify (fun b =>
    let s := f ⟨b.alu, b.buses⟩
    { b with alu := s.alu, buses := s.buses })

def resetAlu : Action Unit := modify (fun b => { b with alu := {} })

def bank (b : Bench) (m : Nat) : Bank := b.banks.getD m ⟨"", "", .blank 0⟩

def changeBank (m : Nat) (f : Bank → Buses → Except DatapathError Bank) : Action Unit := do
  let k ← attempt (fun b => f (b.bank m) b.buses)
  modify (fun b => { b with banks := b.banks.setIfInBounds m k })

def readBank (m : Nat) : Action Unit := do
  let buses ← attempt (fun b => (b.bank m).read b.buses)
  modify (fun b => { b with buses := buses })

def inspectBank {α : Type} (m : Nat) (f : Bank → Except DatapathError α) : Action α :=
  attempt (fun b => f (b.bank m))

end Bench

end BusMachine
