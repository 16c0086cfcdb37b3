import BusMachine.Text.Numeral
import BusMachine.Instruction.Opcode

namespace BusMachine

inductive Defect where
  | duplicateVariable (name : String)
  | labelIsVariable (name : String)
  | duplicateLabel (name : String)
  /-- a declaration after the first label or instruction -/
  | lateVariable (name : String)
  | unknownStatement (text : String)
  | badOperand (word text : String)
  | noForm (mnemonic : String) (kinds : List OperandKind) (text : String)
deriving DecidableEq, Repr

structure ParseError where
  defect : Defect
  line : Nat
  text : String
deriving DecidableEq, Repr

/-- Line 0 stands for no line. -/
inductive LinkError where
  | undeclared (name : String) (line : Int) (text : String)
  | unknownRegister (name : String) (line : Int) (text : String)
  | tooLarge (words : Nat) (base : Int)
deriving DecidableEq, Repr

inductive AssemblyError where
  | parse (first : ParseError) (others : List ParseError)
  | link (e : LinkError)
  | numeral (e : NumeralError)
deriving DecidableEq, Repr

def Defect.message : Defect → String
  | .duplicateVariable name => "Duplicate variable '" ++ name ++ "'"
  | .labelIsVariable name => "Label '" ++ name ++ "' already declared as a variable"
  | .duplicateLabel name => "Duplicate label '" ++ name ++ "'"
  | .lateVariable name =>
    "Variable declaration '" ++ name ++ "' must precede labels and instructions"
  | .unknownStatement text => "Cannot parse '" ++ text ++ "'"
  | .badOperand word text => "Bad operand '" ++ word ++ "' in '" ++ text ++ "'"
  | .noForm mnemonic kinds text =>
    let shape :=
      if kinds.isEmpty then "no operands" else ", ".intercalate (kinds.map OperandKind.name)
    "No form of '" ++ mnemonic ++ "' takes (" ++ shape ++ "): '" ++ text ++ "'"

def atLine (line : Int) (message : String) : String :=
  if line = 0 then message else "Line " ++ toString line ++ ": " ++ message

def ParseError.message (e : ParseError) : String := atLine e.line e.defect.message

namespace LinkError

def line : LinkError → Int
  | .undeclared _ line _ => line
  | .unknownRegister _ line _ => line
  | .tooLarge _ _ => 0

def text : LinkError → String
  | .undeclared _ _ text => text
  | .unknownRegister _ _ text => text
  | .tooLarge _ _ => ""

def symbol? : LinkError → Option String
  | .undeclared name _ _ => some name
  | .unknownRegister name _ _ => some name
  | .tooLarge _ _ => none

def message (e : LinkError) : String :=
  atLine e.line (match e with
    | .undeclared name _ _ => "Undeclared symbol '" ++ name ++ "'"
    | .unknownRegister name _ _ => "Unknown register '%" ++ name ++ "'"
    | .tooLarge words base =>
      "Program of " ++ toString words ++ " words does not fit below the variable area at " ++
        toString base)

end LinkError

def AssemblyError.message : AssemblyError → String
  | .parse e [] => e.message
  | .parse e es => "Parse errors:\n" ++ "\n".intercalate ((e :: es).map ParseError.message)
  | .link e => e.message
  | .numeral e => e.message

end BusMachine
