import BusMachine.Assembly.Error
import BusMachine.Files.Tree
import BusMachine.Executable
import BusMachine.Instruction.Disassembly
import BusMachine.Machine.Load
import BusMachine.Text.Utf8

/-! One run of the program as seen from outside: its files and its two streams. -/
namespace BusMachine.Command

open Text

inductive MissingNumber where
  | memoryToAssemble
  | memoryToRun
  | stepLimit
deriving DecidableEq, Repr

def MissingNumber.message : MissingNumber → String
  | .memoryToAssemble => "unsupported operand type(s) for -: 'list' and 'int'"
  | .memoryToRun => "'<=' not supported between instances of 'list' and 'int'"
  | .stepLimit => "'<' not supported between instances of 'int' and 'list'"

inductive Failure where
  | log (e : FileError)
  | assembly (e : AssemblyError)
  | file (e : FileError)
  | bytes (e : Utf8.DecodeError)
  | load (e : LoadError)
  | memory (e : MemoryError)
  | datapath (e : DatapathError)
  | disassembly (e : DisassemblyError)
  | numeral (e : NumeralError)
  | missing (e : MissingNumber)
deriving DecidableEq, Repr

namespace Failure

def message : Failure → String
  | .log e | .file e => e.message
  | .assembly e => e.message
  | .bytes e => e.message
  | .load e => e.message
  | .memory e => e.message
  | .datapath e => e.message
  | .disassembly e => e.message
  | .numeral e => e.message
  | .missing e => e.message

/-- Whether the program answers the failure with a report of its own. The others break it off. -/
def isReported : Failure → Bool
  | .datapath .unwritable => true
  | .log _ | .datapath _ | .disassembly (.position _) | .missing _ => false
  | .memory .unindexable | .memory .exhausted => false
  | _ => true

def report (e : Failure) : String :=
  let title := match e with
    | .assembly (.parse ..) | .assembly (.link _) => "Assembly error: "
    | _ => "Load error: "
  title ++ e.message

end Failure

inductive Level where
  | debug
  | info
  | warning
  | error
deriving DecidableEq, Repr

namespace Level

def rank : Level → Nat
  | .debug => 0
  | .info => 1
  | .warning => 2
  | .error => 3

def name : Level → String
  | .debug => "DEBUG"
  | .info => "INFO"
  | .warning => "WARNING"
  | .error => "ERROR"

end Level

inductive Logger where
  | assembler
  | machine
  | memory
deriving DecidableEq, Repr

def Logger.name : Logger → String
  | .assembler => "rtl_assembler.assembler"
  | .machine => "rtl_emulator.emu"
  | .memory => "rtl_emulator.mem.memory"

structure LogRecord where
  logger : Logger
  level : Level
  text : String
deriving DecidableEq, Repr

structure Session where
  files : FileTree
  output : String := ""
  messages : String := ""
  threshold : Level := .warning
  logFile : Option Path := none
  /-- the lines that are still to be put into the log file, the latest first -/
  pending : List String := []
deriving DecidableEq, Repr

/-- An action that fails keeps what it wrote before failing. One that never ends has no outcome. -/
abbrev Action := ExceptT Failure (StateT Session Option)

namespace Session

def printLine (s : Session) (line : String) : Session :=
  { s with output := s.output ++ line ++ "\n" }

def keeps (s : Session) (level : Level) : Bool :=
  s.threshold.rank ≤ level.rank || s.logFile.isSome

def log (s : Session) (r : LogRecord) : Session :=
  let s := if s.threshold.rank ≤ r.level.rank then
      { s with messages := s.messages ++ r.level.name ++ ": " ++ r.text ++ "\n" }
    else s
  if s.logFile.isSome then
    let line := r.logger.name ++ " - " ++ r.level.name ++ " - " ++ r.text ++ "\n"
    { s with pending := line :: s.pending }
  else s

/-- This comes before every other use of the files. -/
def flush (s : Session) : Session :=
  match s.logFile with
  | none => s
  | some p =>
    match s.files.append p (Utf8.encode (String.join s.pending.reverse).toList) with
    | .ok files => { s with files := files, pending := [] }
    | .error _ => s

end Session

namespace Action

def print (line : String) : Action Unit := modify (·.printLine line)

def log (logger : Logger) (level : Level) (text : String) : Action Unit :=
  modify (·.log ⟨logger, level, text⟩)

def orFail {ε α : Type} (wrap : ε → Failure) : Except ε α → Action α
  | .ok a => return a
  | .error e => throw (wrap e)

def readText (path : String) : Action String := do
  modify Session.flush
  let bytes ← orFail .file ((← get).files.read (.ofString path))
  let cs ← orFail .bytes (Utf8.decode bytes)
  return String.ofList (unifyNewlines cs)

def writeText (path text : String) : Action Unit := do
  modify Session.flush
  let files ← orFail .file ((← get).files.write (.ofString path) (Utf8.encode text.toList))
  modify ({ · with files := files })

/-- The log file is made, with the directories on its way, even if nothing is ever logged. -/
def openLog (path : String) : Action Unit := do
  let p := Path.ofString path
  let files ← orFail .log ((← get).files.makeDirectory p.parent)
  let files ← orFail .log (files.append p [])
  modify (fun s => { s with files := files, logFile := some p })

end Action

end BusMachine.Command
