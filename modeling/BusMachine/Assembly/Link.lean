import BusMachine.Assembly.Error
import BusMachine.Assembly.Object
import BusMachine.Datapath.Register

/-! Linking. The first variable lives in the last cell of memory, the next one below it. -/
namespace BusMachine.ObjectProgram

def prologueLength : Nat := 2 * Opcode.moveImmReg.size

/-- The address below which the program has to end. -/
def variableBase (p : ObjectProgram) (memorySize : Int) : Int := memorySize - p.variableNames.length

def addressesFrom (top : Int) : List String → List (String × Int)
  | [] => []
  | name :: names => (name, top) :: addressesFrom (top - 1) names

def variableAddresses (p : ObjectProgram) (memorySize : Int) : SymbolTable :=
  .ofEntries (addressesFrom (memorySize - 1) p.variableNames)

def labelAddresses (p : ObjectProgram) : SymbolTable :=
  p.labels.map (fun e => (e.1, e.2 + prologueLength))

/-- The numbers of all names; a variable hides a label of its name. -/
def symbols (p : ObjectProgram) (memorySize : Int) : SymbolTable :=
  p.labelAddresses.putAll (p.variableAddresses memorySize)

def resolve (symbols : SymbolTable) (i : Instruction) : Operand → Except AssemblyError Int
  | .symbol name =>
    match symbols.lookup name with
    | some address => .ok address
    | none => .error (.link (.undeclared name i.line (Text.trimmed i.raw)))
  | .register name =>
    match Register.named? name with
    | some r => .ok r.id
    | none => .error (.link (.unknownRegister name i.line (Text.trimmed i.raw)))
  | .literal text =>
    match Numeral.read text with
    | .ok n => .ok n
    | .error e => .error (.numeral e)

def encode (symbols : SymbolTable) (i : Instruction) : Except AssemblyError (List Int) := do
  let words ← i.operands.mapM (resolve symbols i)
  return (i.opcode.id : Int) :: words

def prologue (base : Int) : List Int :=
  [Opcode.moveImmReg.id, base, Register.stkbot.id, Opcode.moveImmReg.id, base, Register.stktop.id]

/-- The size is judged last. A program that is too large is reported with the base. -/
def link (p : ObjectProgram) (memorySize : Int) : Except AssemblyError (List Int) := do
  let base := p.variableBase memorySize
  let code ← p.instructions.mapM (encode (p.symbols memorySize))
  let words := prologue base ++ code.flatten ++ [haltWord]
  if words.length ≤ base then return words
  else if Numeral.isWritable base then throw (.link (.tooLarge words.length base))
  else throw (.numeral .unwritable)

end BusMachine.ObjectProgram
