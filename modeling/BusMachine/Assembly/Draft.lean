import BusMachine.Assembly.Error
import BusMachine.Assembly.Object

/-! Parsing. A draft collects what the statements say together with every defect found. -/
namespace BusMachine

open Text

structure Draft where
  declarations : List (String × Nat) := []
  labels : List (String × Int) := []
  instructions : List Instruction := []
  length : Nat := 0
  errors : List ParseError := []
deriving DecidableEq, Repr

/-- Why a statement yields no instruction: a defect, which is noted, or a numeral of too many
digits, which ends the reading. -/
inductive StatementError where
  | defect (d : Defect)
  | numeral (e : NumeralError)
deriving DecidableEq, Repr

namespace Draft

def isDeclared (d : Draft) (name : String) : Bool := d.declarations.any (·.1 == name)

def isLabel (d : Draft) (name : String) : Bool := d.labels.any (·.1 == name)

def note (d : Draft) (s : Statement) (what : Defect) : Draft :=
  { d with errors := d.errors ++ [⟨what, s.line, trimmed s.raw⟩] }

def declare (d : Draft) (s : Statement) : Draft :=
  if d.isDeclared s.text then d.note s (.duplicateVariable s.text)
  else { d with declarations := d.declarations ++ [(s.text, s.line)] }

def addLabel (d : Draft) (s : Statement) (name : String) : Draft :=
  if d.isDeclared name then d.note s (.labelIsVariable name)
  else if d.isLabel name then d.note s (.duplicateLabel name)
  else { d with labels := d.labels ++ [(name, (d.length : Int))] }

def readOperands (text : String) : List String → Except StatementError (List Operand)
  | [] => .ok []
  | w :: ws =>
    match Operand.ofWord w with
    | .error e => .error (.numeral e)
    | .ok none => .error (.defect (.badOperand w text))
    | .ok (some o) => (readOperands text ws).map (o :: ·)

def readInstruction (text : String) : Except StatementError (Opcode × List Operand) :=
  match Statement.wordsOf text with
  | [] => .error (.defect (.unknownStatement text))
  | first :: rest =>
    let mnemonic := lowerCase first
    if !Statement.spellsMnemonic first then
      if rest.isEmpty && Statement.isName first.toList then
        .error (.defect (.lateVariable first))
      else .error (.defect (.unknownStatement text))
    else do
      let operands ← readOperands text rest
      let kinds := operands.map Operand.kind
      match Opcode.withForm? mnemonic kinds with
      | some c => .ok (c, operands)
      | none => .error (.defect (.noForm mnemonic kinds text))

def addInstruction (d : Draft) (s : Statement) : Except NumeralError Draft :=
  match readInstruction s.text with
  | .ok (c, operands) =>
    let i : Instruction := ⟨c, operands, s.line, s.raw, d.length⟩
    .ok { d with instructions := d.instructions ++ [i], length := d.length + i.size }
  | .error (.defect what) => .ok (d.note s what)
  | .error (.numeral e) => .error e

def add (d : Draft) (s : Statement) : Except NumeralError Draft :=
  match Statement.label? s.text with
  | some name => .ok (d.addLabel s name)
  | none => d.addInstruction s

def addAll (d : Draft) : List Statement → Draft × Option NumeralError
  | [] => (d, none)
  | s :: ss =>
    match d.add s with
    | .ok d' => d'.addAll ss
    | .error e => (d, some e)

def ofStatements (ss : List Statement) : Draft × Option NumeralError :=
  let declares (s : Statement) : Bool := Statement.declaresVariable s.text
  ((ss.takeWhile declares).foldl declare {}).addAll (ss.dropWhile declares)

def ofSource (source : String) : Draft × Option NumeralError :=
  ofStatements (Statement.ofSource source)

def program (d : Draft) : ObjectProgram :=
  ⟨d.declarations.map (·.1), d.labels, d.instructions⟩

def finish (d : Draft) : Except AssemblyError ObjectProgram :=
  match d.errors with
  | [] => .ok d.program
  | e :: es => .error (.parse e es)

end Draft

end BusMachine
