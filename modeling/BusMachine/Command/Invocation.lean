import BusMachine.Command.Options

/-! Command lines: options for all commands, and each command with one file and its own. -/
namespace BusMachine.Command

inductive StepLimit where
  | unlimited
  | atMost (steps : Int)
  /-- a limit was asked for without its number -/
  | missing
deriving DecidableEq, Repr

structure RunOptions where
  limit : StepLimit := .unlimited
  trace : Bool := false
  dump : Bool := false
deriving DecidableEq, Repr

inductive Task where
  | assemble (input : String) (output : Option String) (listing : Bool)
  | run (input : String) (options : RunOptions)
  | build (input : String) (options : RunOptions)
  | disassemble (input : String)
deriving DecidableEq, Repr

structure Settings where
  verbosity : Nat := 0
  quiet : Bool := false
  logFile : Option String := none
  memorySize : Option Int := some 256
deriving DecidableEq, Repr

inductive Request where
  | help
  | commandHelp (command : String)
  | version
  | refuse (command : Option String) (e : WordError)
  | perform (settings : Settings) (task : Task)
deriving DecidableEq, Repr

def integer (key : Key) : Option String → Except WordError (Option Int)
  | none => .ok none
  | some text =>
    match Numeral.read text with
    | .ok n => .ok (some n)
    | .error _ => .error (.notInteger key text)

structure CommandWords where
  input : Option String := none
  output : Option String := none
  listing : Bool := false
  options : RunOptions := {}

inductive CommandName where
  | asm
  | run
  | build
  | disasm
deriving DecidableEq, Repr

namespace CommandName

def text : CommandName → String
  | .asm => "asm"
  | .run => "run"
  | .build => "build"
  | .disasm => "disasm"

def all : List CommandName := [.asm, .run, .build, .disasm]

def named? (s : String) : Option CommandName := all.find? (·.text == s)

def grammar : CommandName → Grammar
  | .asm => [.help, .output, .listing]
  | .run | .build => [.help, .maxSteps, .trace, .dump]
  | .disasm => [.help]

def task (c : CommandName) (input : String) (w : CommandWords) : Task :=
  match c with
  | .asm => .assemble input w.output w.listing
  | .run => .run input w.options
  | .build => .build input w.options
  | .disasm => .disassemble input

end CommandName

inductive Interruption where
  | help
  | version
  | error (e : WordError)

namespace CommandWords

def apply (w : CommandWords) : Event → Except Interruption CommandWords
  | .operands words => .ok { w with input := words.head? }
  | .option .help _ => .error .help
  | .option .output value => .ok { w with output := value }
  | .option .listing _ => .ok { w with listing := true }
  | .option .maxSteps value =>
    match integer .maxSteps value with
    | .ok n => .ok { w with options := { w.options with limit := n.elim .missing .atMost } }
    | .error e => .error (.error e)
  | .option .trace _ => .ok { w with options := { w.options with trace := true } }
  | .option .dump _ => .ok { w with options := { w.options with dump := true } }
  | .option _ _ => .ok w

end CommandWords

def readCommand (c : CommandName) (words : List String) :
    Except Interruption (Task × List String) := do
  let reading := c.grammar.read .one words
  let w ← reading.events.foldlM CommandWords.apply {}
  match reading.failure, w.input with
  | some e, _ => throw (.error e)
  | none, none => throw (.error .inputMissing)
  | none, some input => return (c.task input w, reading.extras)

def grammar : Grammar := [.help, .version, .verbose, .quiet, .logFile, .memorySize]

structure Progress where
  settings : Settings := {}
  task : Option Task := none
  extras : List String := []

def Progress.apply (p : Progress) : Event → Except Request Progress
  | .option .help _ => .error .help
  | .option .version _ => .error .version
  | .option .verbose _ =>
    .ok { p with settings := { p.settings with verbosity := p.settings.verbosity + 1 } }
  | .option .quiet _ => .ok { p with settings := { p.settings with quiet := true } }
  | .option .logFile value => .ok { p with settings := { p.settings with logFile := value } }
  | .option .memorySize value =>
    match integer .memorySize value with
    | .ok n => .ok { p with settings := { p.settings with memorySize := n } }
    | .error e => .error (.refuse none e)
  | .option _ _ => .ok p
  | .operands words =>
    let name := words.headD ""
    match CommandName.named? name with
    | none => .error (.refuse none (.unknownCommand name (CommandName.all.map CommandName.text)))
    | some c =>
      match readCommand c words.tail with
      | .ok (task, extras) => .ok { p with task := some task, extras := extras }
      | .error .help => .error (.commandHelp c.text)
      | .error .version => .error .version
      | .error (.error e) => .error (.refuse (some c.text) e)

def readRequest (words : List String) : Request :=
  let reading := grammar.read .rest words
  match reading.events.foldlM Progress.apply {} with
  | .error request => request
  | .ok p =>
    match reading.failure, reading.extras ++ p.extras, p.task with
    | some e, _, _ => .refuse none e
    | none, [], some task => .perform p.settings task
    | none, [], none => .help
    | none, extras, _ => .refuse none (.unrecognized extras)

end BusMachine.Command
