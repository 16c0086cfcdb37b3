import BusMachine.Instruction.Opcode
import BusMachine.Machine.MicroOp

/-! Micro-programs. All operand words are read before the body of the instruction runs. -/
namespace BusMachine.MicroProgram

def readWord : List MicroOp :=
  [.give .pc, .toExternal, .select .main, .read .main, .toInternal]

/-- The program counter moves on by one, through the arithmetic unit. -/
def advance : List MicroOp :=
  [.give .pc, .aluTake .second, .operate .inc, .aluGive .second, .take .pc]

def fetchInstruction : List MicroOp := readWord ++ .take .ir :: advance

/-- An immediate waits in the instruction register while the operand after it is read. -/
def keeper? : OperandKind → Option Register
  | .immediate => some .ir
  | _ => none

def giveRegister (id : Int) : List MicroOp := [.drive id, .giveSelected]

def takeRegister (id : Int) : List MicroOp := [.drive id, .takeSelected]

def selectCell (address : Int) : List MicroOp := [.place address, .toExternal, .select .main]

def setFlags : List MicroOp :=
  [.aluGive .second, .recordFlag .zero, .recordFlag .negative]

def regReg (op : Alu.Operation) (a b : Int) : List MicroOp :=
  giveRegister a ++ [.aluTake .first] ++ giveRegister b ++ [.aluTake .second, .operate op] ++
    setFlags ++ takeRegister b

def memReg (op : Alu.Operation) (address a : Int) : List MicroOp :=
  selectCell address ++ [.read .main, .aluLoad .first] ++ giveRegister a ++
    [.aluTake .second, .operate op] ++ setFlags ++ takeRegister a

def regMem (op : Alu.Operation) (a address : Int) : List MicroOp :=
  giveRegister a ++ [.aluTake .first] ++ selectCell address ++
    [.read .main, .aluLoad .second, .operate op] ++ setFlags ++ [.aluDrive .second, .store .main]

/-- The bit that `placeBit` leaves on the internal bus picks one of the two continuations. -/
def branch (placeBit : List MicroOp) (target : Int) (fallThrough : Bool) : List MicroOp :=
  [.place (bitWord fallThrough), .select .status, .give .pc, .store .status,
    .place (bitWord !fallThrough), .select .status, .place target, .store .status] ++
  placeBit ++ [.select .status, .read .status, .take .pc]

def subtract (a b : Int) : List MicroOp :=
  giveRegister a ++ [.aluTake .first] ++ giveRegister b ++ [.aluTake .second, .operate .sub]

def judgeResult (f : Flag) : List MicroOp := [.aluGive .second, .judge f]

/-- The stack pointer goes down by one: `t + (t - (t + 1))`. -/
def call (target : Int) : List MicroOp :=
  [.give .stktop, .aluTake .first, .aluTake .second, .operate .inc, .operate .sub, .operate .add,
    .aluGive .second, .take .stktop,
    .give .stktop, .toExternal, .select .main, .give .pc, .toExternal, .store .main,
    .place target, .take .pc]

def ret : List MicroOp :=
  [.give .stktop, .toExternal, .select .main, .read .main, .toInternal, .take .pc,
    .give .stktop, .aluTake .second, .operate .inc, .aluGive .second, .take .stktop]

/-- Words beyond or short of the operands do not occur, and nothing is done with them. -/
def body : Opcode → List Int → List MicroOp
  | .addRegReg, [a, b] => regReg .add a b
  | .addMemReg, [address, a] => memReg .add address a
  | .addRegMem, [a, address] => regMem .add a address
  | .subRegReg, [a, b] => regReg .sub a b
  | .subMemReg, [address, a] => memReg .sub address a
  | .subRegMem, [a, address] => regMem .sub a address
  | .moveMemReg, [address, a] =>
    selectCell address ++ [.read .main, .toInternal] ++ takeRegister a
  | .moveRegMem, [a, address] =>
    selectCell address ++ giveRegister a ++ [.toExternal, .store .main]
  | .moveRegReg, [a, b] => giveRegister a ++ takeRegister b
  | .moveImmReg, [_, a] => .give .ir :: takeRegister a
  | .incReg, [a] =>
    giveRegister a ++ [.aluTake .second, .operate .inc] ++ setFlags ++ takeRegister a
  | .incMem, [address] =>
    selectCell address ++ [.read .main, .aluLoad .second, .operate .inc] ++ setFlags ++
      [.aluDrive .second, .store .main]
  | .jmp, [target] => [.place target, .take .pc]
  | .jn, [target] => branch [.giveFlag .negative] target false
  | .jz, [target] => branch [.giveFlag .zero] target false
  | .jnz, [target] => branch [.giveFlag .zero] target true
  | .jeq, [a, b, target] => subtract a b ++ branch (judgeResult .zero) target false
  | .jgt, [a, b, target] => subtract b a ++ branch (judgeResult .negative) target false
  | .jlw, [a, b, target] => subtract a b ++ branch (judgeResult .negative) target false
  | .call, [target] => call target
  | .ret, [] => ret
  | _, _ => []

end BusMachine.MicroProgram
