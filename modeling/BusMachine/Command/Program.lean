import BusMachine.Assembly.Assembler
import BusMachine.Command.Invocation
import BusMachine.Command.Session
import BusMachine.Machine.Cycle

/-! The program. It exits with 1 after an error, and with 2 if no halt word stopped the machine. -/
namespace BusMachine.Command

namespace Action

def logDraft (d : Draft) : Action Unit := do
  d.declarations.forM fun (name, line) =>
    log .assembler .debug ("Variable " ++ name ++ " (line " ++ toString line ++ ")")
  d.labels.forM fun (name, offset) =>
    log .assembler .debug ("Label " ++ name ++ " at object offset " ++ toString offset)

def require (e : MissingNumber) : Option Int → Action Int
  | some n => return n
  | none => throw (.missing e)

/-- Only linking needs the memory size, so a wrong source is found before a missing size. -/
def assembleFile (memorySize : Option Int) (input : String) : Action Assembler := do
  let source ← readText input
  logDraft (Draft.ofSource source).1
  let (a, parsed) := (Assembler.ofSize (memorySize.getD 0)).parse source
  let p ← orFail .assembly parsed
  let _ ← require .memoryToAssemble memorySize
  match a.install p with
  | (_, .error e) => throw (.assembly e)
  | (a, .ok words) =>
    log .assembler .info ("Assembled " ++ toString p.instructions.length ++ " instructions, " ++
      toString p.variableNames.length ++ " variables, " ++ toString p.labels.length ++
        " labels -> " ++
      toString words.length ++ " words")
    return a

def readExecutable (input : String) : Action (List Int) := do
  let text ← readText input
  orFail (Failure.load ∘ .text) (Executable.ofText text)

def assemble (memorySize : Option Int) (input : String) (output : Option String) (listing : Bool) :
    Action Nat := do
  let a ← assembleFile memorySize input
  let output := output.getD ""
  if listing || output.isEmpty then print (← orFail .numeral a.listing)
  if output.isEmpty then return 0
  if extension output == ".lst" then
    writeText output ((← orFail .numeral a.listing) ++ "\n")
  else
    writeText output a.executableText
    log .assembler .info ("Wrote " ++ toString a.executable.length ++ " words to " ++ output)
  print ("Assembled " ++ toString a.executable.length ++ " words -> " ++ output)
  return 0

def logInstruction (m : Machine) : Action Unit :=
  match Control.fetch m with
  | .ok none fetched => do
    let line ← orFail .datapath (fetched.instructionLine m.registers.pc)
    log .machine .debug line
  | _ => return ()

def logFault (m : Machine) : Action Unit :=
  match Control.fetch m with
  | .ok none fetched =>
    match Control.decodeExecute fetched with
    | .error (.fault f) _ =>
      log .machine .warning
        ("Datapath fault at " ++ toString m.registers.pc ++ ": " ++ f.message)
    | _ => return ()
  | _ => return ()

def step (m : Machine) : Action (Option StopReason × Machine) := do
  if m.tracing || (← get).keeps .debug then logInstruction m
  match Control.step m with
  | .error e _ => throw (.datapath e)
  | .ok none m' => return (none, m')
  | .ok (some r) m' => do
    if r = .fault then logFault m
    log .machine .info ("Halted (" ++ r.name ++ ") at " ++ toString m.registers.pc ++ " after " ++
      toString m'.steps ++ " steps")
    return (some r, m')

/-- At most that many steps; `made` counts those made before. -/
def runFor (made : Nat) (m : Machine) : Nat → Action (StopReason × Machine)
  | 0 => do
    log .machine .info ("Stopped after " ++ toString made ++ " steps: " ++ StopReason.timeout.name)
    return (.timeout, m)
  | n + 1 => do
    let (reason, m) ← step m
    match reason with
    | some r => return (r, m)
    | none => runFor (made + 1) m n

end Action

/-- If no step stops the machine or fails, there is no outcome. -/
def Session.runOn (m : Machine) (s : Session) :
    Option (Except Failure (StopReason × Machine) × Session) := do
  match ← Action.step m s with
  | (.ok (none, m), s) => s |>.runOn m
  | (.ok (some r, m), s) => return (.ok (r, m), s)
  | (.error e, s) => return (.error e, s)
partial_fixpoint

namespace Action

def runMachine (limit : StepLimit) (m : Machine) : Action (StopReason × Machine) :=
  match limit with
  | .unlimited => Session.runOn m
  | .atMost n => runFor 0 m n.toNat
  | .missing => throw (.missing .stepLimit)

def execute (storage : Option Nat) (memorySize : Option Int) (words : List Int)
    (options : RunOptions) : Action Nat := do
  let size ← require .memoryToRun memorySize
  let m ← orFail .memory (Machine.ofSize { storage := storage } size)
  let m ← orFail .load (m.load words)
  let count := toString words.length
  log .memory .debug ("Loaded " ++ count ++ " words into MEM at 0")
  log .machine .info
    ("Loaded " ++ count ++ "-word program into " ++ toString m.main.size ++ "-word memory")
  let (reason, m) ← runMachine options.limit { m with tracing := options.trace }
  if options.trace then print m.traceText
  print ("Stopped: " ++ reason.name ++ " after " ++ toString m.steps ++ " steps")
  print (← orFail .numeral m.registerDump)
  if options.dump then print (← orFail .memory (m.main.dump m.writing 0 none 8))
  return if reason = .halt then 0 else 2

def perform (storage : Option Nat) (memorySize : Option Int) : Task → Action Nat
  | .assemble input output listing => assemble memorySize input output listing
  | .run input options => do
    let words ← readExecutable input
    execute storage memorySize words options
  | .build input options => do
    let a ← assembleFile memorySize input
    execute storage memorySize a.executable options
  | .disassemble input => do
    let words ← readExecutable input
    let lines ← orFail .disassembly (BusMachine.disassemble .limited words 0 none)
    lines.forM print
    return 0

def performLogged (storage : Option Nat) (settings : Settings) (task : Task) : Action Nat := do
  match settings.logFile with
  | none | some "" => pure ()
  | some path => openLog path
  perform storage settings.memorySize task

end Action

def Settings.threshold (s : Settings) : Level :=
  if s.quiet then .error
  else match s.verbosity with
    | 0 => .warning
    | 1 => .info
    | _ => .debug

structure Outcome where
  result : Except Failure Nat
  output : String
  messages : String
  files : FileTree

def Outcome.ofEnd : Except Failure Nat × Session → Outcome
  | (.ok code, s) => ⟨.ok code, s.output, s.messages, s.flush.files⟩
  | (.error e, s) =>
    if e.isReported then ⟨.ok 1, s.output, s.messages ++ e.report ++ "\n", s.flush.files⟩
    else ⟨.error e, s.output, s.messages, s.flush.files⟩

def programName : String := "rtlkit"

def usage : Option String → String
  | none =>
    "usage: rtlkit [-h] [--version] [-v] [-q] [--log-file FILE] [--memory-size N] command ...\n"
  | some "asm" => "usage: rtlkit asm [-h] [-o FILE] [--listing] input\n"
  | some "disasm" => "usage: rtlkit disasm [-h] input\n"
  | some command =>
    "usage: rtlkit " ++ command ++ " [-h] [--max-steps N] [--trace] [--dump] input\n"

def help : String :=
  usage none ++ "
commands:
  asm        assemble source text to an executable or a listing
  run        run an executable
  build      assemble and run source text
  disasm     disassemble an executable

options:
  -h, --help       show this help
  --version        show the version
  -v, --verbose    log more; twice for every instruction
  -q, --quiet      log errors only
  --log-file FILE  also write the whole log to a file
  --memory-size N  the words of memory, 256 if not given
"

/-- A run without an end has no outcome. -/
def run (storage : Option Nat) (words : List String) (files : FileTree) : Option Outcome :=
  match readRequest words with
  | .help => some ⟨.ok 0, help, "", files⟩
  | .commandHelp command => some ⟨.ok 0, usage (some command), "", files⟩
  | .version => some ⟨.ok 0, programName ++ " 1.0.0\n", "", files⟩
  | .refuse command e =>
    let name := programName ++ (command.elim "" (" " ++ ·))
    some ⟨.ok 2, "", usage command ++ name ++ ": error: " ++ e.message ++ "\n", files⟩
  | .perform settings task =>
    (Action.performLogged storage settings task
      { files := files, threshold := settings.threshold }).map .ofEnd

end BusMachine.Command
