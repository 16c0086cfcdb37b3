import BusMachine.Text.Numeral

/-! The instruction set. Each operand takes one word after the id of the instruction. -/
namespace BusMachine

inductive OperandKind where
  | register
  | memory
  | immediate
deriving DecidableEq, Repr

def OperandKind.name : OperandKind → String
  | .register => "reg"
  | .memory => "mem"
  | .immediate => "imm"

/-- The word that ends a program where an instruction is expected. -/
def haltWord : Int := -1

inductive Opcode where
  | addRegReg
  | addMemReg
  | addRegMem
  | subRegReg
  | subMemReg
  | subRegMem
  | moveMemReg
  | moveRegMem
  | moveRegReg
  | moveImmReg
  | incReg
  | incMem
  | jmp
  | jn
  | jz
  | jnz
  | jeq
  | jgt
  | jlw
  | call
  | ret
deriving DecidableEq, Repr

namespace Opcode

def all : List Opcode :=
  [.addRegReg, .addMemReg, .addRegMem, .subRegReg, .subMemReg, .subRegMem, .moveMemReg, .moveRegMem,
    .moveRegReg, .moveImmReg, .incReg, .incMem, .jmp, .jn, .jz, .jnz, .jeq, .jgt, .jlw, .call, .ret]

def id : Opcode → Nat
  | .addRegReg => 0
  | .addMemReg => 1
  | .addRegMem => 2
  | .subRegReg => 3
  | .subMemReg => 4
  | .subRegMem => 5
  | .moveMemReg => 6
  | .moveRegMem => 7
  | .moveRegReg => 8
  | .moveImmReg => 9
  | .incReg => 10
  | .incMem => 11
  | .jmp => 12
  | .jn => 13
  | .jz => 14
  | .jnz => 15
  | .jeq => 16
  | .jgt => 17
  | .jlw => 18
  | .call => 19
  | .ret => 20

def ofWord? (w : Int) : Option Opcode := all.find? (fun c => (c.id : Int) == w)

def unknownMessage (w : Int) : String :=
  Writing.limited.message w (toString w ++ " is not a valid CommandID")

def mnemonic : Opcode → String
  | .addRegReg | .addMemReg | .addRegMem => "add"
  | .subRegReg | .subMemReg | .subRegMem => "sub"
  | .moveMemReg | .moveRegMem | .moveRegReg | .moveImmReg => "move"
  | .incReg | .incMem => "inc"
  | .jmp => "jmp"
  | .jn => "jn"
  | .jz => "jz"
  | .jnz => "jnz"
  | .jeq => "jeq"
  | .jgt => "jgt"
  | .jlw => "jlw"
  | .call => "call"
  | .ret => "ret"

def kinds : Opcode → List OperandKind
  | .addRegReg | .subRegReg | .moveRegReg => [.register, .register]
  | .addMemReg | .subMemReg | .moveMemReg => [.memory, .register]
  | .addRegMem | .subRegMem | .moveRegMem => [.register, .memory]
  | .moveImmReg => [.immediate, .register]
  | .incReg => [.register]
  | .incMem | .jmp | .jn | .jz | .jnz | .call => [.memory]
  | .jeq | .jgt | .jlw => [.register, .register, .memory]
  | .ret => []

def size (c : Opcode) : Nat := 1 + c.kinds.length

def isMnemonic (s : String) : Bool := all.any (fun c => c.mnemonic == s)

def withForm? (mnemonic : String) (kinds : List OperandKind) : Option Opcode :=
  all.find? (fun c => c.mnemonic == mnemonic && c.kinds == kinds)

theorem ofWord?_id (c : Opcode) : ofWord? c.id = some c := by
  cases c <;> rfl

theorem withForm?_mnemonic_kinds (c : Opcode) : withForm? c.mnemonic c.kinds = some c := by
  cases c <;> rfl

end Opcode

end BusMachine
