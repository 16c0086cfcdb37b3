import BusMachine.Instruction.Disassembly
import BusMachine.Machine.State

namespace BusMachine

def DatapathError.ofDisassembly : DisassemblyError → DatapathError
  | .position e => .index e
  | .numeral _ => .unwritable

namespace Machine

open Text

def flagBit (m : Machine) (f : Flag) : Bool :=
  match m.flags.get f.position with
  | .ok bit => bit
  | .error _ => false

def values (m : Machine) : String :=
  let r := m.registers
  let zero := if m.flagBit .zero then "Z" else "."
  let negative := if m.flagBit .negative then "N" else "."
  "PC=" ++ toString r.pc ++ " IR=" ++ toString r.ir ++
    " R0=" ++ toString r.reg0 ++ " R1=" ++ toString r.reg1 ++
    " R2=" ++ toString r.reg2 ++ " R3=" ++ toString r.reg3 ++
    " TOP=" ++ toString r.stktop ++ " BOT=" ++ toString r.stkbot ++
    " [" ++ zero ++ negative ++ "]"

/-- What is made by writing the values of the registers. -/
def writeRegisters {α : Type} (m : Machine) (made : α) : Except NumeralError α :=
  m.writing.require (Register.all.map m.registers.get) made

def display (m : Machine) : Except NumeralError String := m.writeRegisters m.values

def registerTable (m : Machine) : String :=
  let line (r : Register) : String :=
    "  " ++ toString r.id ++ " " ++ alignLeft 7 r.name ++ " " ++ toString (m.registers.get r)
  let flags := "    FLAGS   Z=" ++ toString (bitWord (m.flagBit .zero)) ++
    " N=" ++ toString (bitWord (m.flagBit .negative))
  "\n".intercalate (Register.all.map line ++ [flags])

def registerDump (m : Machine) : Except NumeralError String := m.writeRegisters m.registerTable

/-- The line for the instruction at `pc`, on a machine that has just fetched it. -/
def instructionLine (m : Machine) (pc : Int) : Except DatapathError String := do
  let d ← (Disassembly.decodeAt m.writing m.main.cells.toList pc).mapError .ofDisassembly
  let shown ← m.display.mapError (fun _ => .unwritable)
  return zeroPadded 4 pc ++ ": " ++ alignLeft 24 d.text ++ " " ++ shown

def faultLine (f : Fault) : String := "  FAULT: " ++ f.message

def traceText (m : Machine) : String := "\n".intercalate m.trace.toList

end Machine

end BusMachine
