import BusMachine.Assembly.Draft
import BusMachine.Assembly.Listing
import BusMachine.Executable

namespace BusMachine

structure Assembler where
  memorySize : Int
  pending : List ParseError := []
  program : Option ObjectProgram := none
  executable : List Int := []
deriving DecidableEq, Repr

namespace Assembler

def ofSize (memorySize : Int) : Assembler := { memorySize := memorySize }

def parse (a : Assembler) (source : String) : Assembler × Except AssemblyError ObjectProgram :=
  let (draft, stopped) := Draft.ofSource source
  let a := { a with pending := draft.errors }
  match stopped with
  | some e => (a, .error (.numeral e))
  | none => (a, draft.finish)

def link (a : Assembler) (p : ObjectProgram) : Except AssemblyError (List Int) :=
  p.link a.memorySize

def install (a : Assembler) (p : ObjectProgram) : Assembler × Except AssemblyError (List Int) :=
  match a.link p with
  | .ok words => ({ a with program := some p, executable := words }, .ok words)
  | .error e => (a, .error e)

def assemble (a : Assembler) (source : String) : Assembler × Except AssemblyError (List Int) :=
  match a.parse source with
  | (a, .ok p) => a.install p
  | (a, .error e) => (a, .error e)

def executableText (a : Assembler) : String := Executable.toText a.executable

def listing (a : Assembler) : Except NumeralError String :=
  match a.program with
  | some p => BusMachine.listing p a.executable a.memorySize
  | none => .ok ""

end Assembler

def assemble (source : String) (memorySize : Int) : Except AssemblyError (List Int) :=
  ((Assembler.ofSize memorySize).assemble source).2

/-- The executable of the source text in a file, whose line ends are unified before it is read. -/
def assembleFileText (source : String) (memorySize : Int) : Except AssemblyError (List Int) :=
  assemble (String.ofList (Text.unifyNewlines source.toList)) memorySize

def assembleToText (source : String) (memorySize : Int) : Except AssemblyError String :=
  (assemble source memorySize).map Executable.toText

end BusMachine
