import BusMachine.Assembly.Operand

/-! Object programs: instructions in order with open operands, and the names that close them. -/
namespace BusMachine

structure Instruction where
  opcode : Opcode
  operands : List Operand
  line : Int := 0
  raw : String := ""
  offset : Int := 0
deriving DecidableEq, Repr

namespace Instruction

def size (i : Instruction) : Nat := 1 + i.operands.length

def tokens (i : Instruction) : List String :=
  toString i.opcode.id :: i.operands.map Operand.token

end Instruction

/-- A name stands once, where it was first put, and keeps the last number put. -/
abbrev SymbolTable := List (String × Int)

namespace SymbolTable

def put (t : SymbolTable) (name : String) (v : Int) : SymbolTable :=
  if t.any (·.1 == name) then t.map (fun e => if e.1 == name then (name, v) else e)
  else t ++ [(name, v)]

def putAll (t : SymbolTable) (entries : List (String × Int)) : SymbolTable :=
  entries.foldl (fun t e => t.put e.1 e.2) t

def ofEntries (entries : List (String × Int)) : SymbolTable := putAll [] entries

end SymbolTable

structure ObjectProgram where
  variableNames : List String := []
  labels : SymbolTable := []
  instructions : List Instruction := []
deriving DecidableEq, Repr

namespace ObjectProgram

def length (p : ObjectProgram) : Nat := p.instructions.foldr (fun i n => i.size + n) 0

def tokens (p : ObjectProgram) : List String := p.instructions.flatMap Instruction.tokens

end ObjectProgram

end BusMachine
