import BusMachine.Text.Numeral

/-! Words of a command line. A long option may be cut to any beginning that no other shares. -/
namespace BusMachine.Command

inductive Key where
  | help
  | version
  | verbose
  | quiet
  | logFile
  | memorySize
  | output
  | listing
  | maxSteps
  | trace
  | dump
deriving DecidableEq, Repr

namespace Key

def names : Key → List String
  | .help => ["-h", "--help"]
  | .version => ["--version"]
  | .verbose => ["-v", "--verbose"]
  | .quiet => ["-q", "--quiet"]
  | .logFile => ["--log-file"]
  | .memorySize => ["--memory-size"]
  | .output => ["-o", "--output"]
  | .listing => ["--listing"]
  | .maxSteps => ["--max-steps"]
  | .trace => ["--trace"]
  | .dump => ["--dump"]

def takesValue : Key → Bool
  | .logFile | .memorySize | .output | .maxSteps => true
  | _ => false

end Key

abbrev Grammar := List Key

namespace Grammar

def spellings (g : Grammar) : List (String × Key) :=
  g.flatMap (fun k => k.names.map (fun name => (name, k)))

end Grammar

inductive Word where
  | operand (text : String)
  | separator
  | option (key : Key) (name : String) (attached : Option (List Char))
  | unknown (text : String)
deriving DecidableEq, Repr

inductive WordError where
  | ambiguous (word : String) (names : List String)
  | valueMissing (key : Key)
  | valueRefused (key : Key) (value : String)
  | notInteger (key : Key) (value : String)
  | unknownCommand (word : String) (known : List String)
  | inputMissing
  | unrecognized (words : List String)
deriving DecidableEq, Repr

def aboutOption (key : Key) : String := "argument " ++ "/".intercalate key.names ++ ": "

def WordError.message : WordError → String
  | .ambiguous word names =>
    "ambiguous option: " ++ word ++ " could match " ++ ", ".intercalate names
  | .valueMissing key => aboutOption key ++ "expected one argument"
  | .valueRefused key value => aboutOption key ++ "ignored explicit argument " ++ Text.quoted value
  | .notInteger key value => aboutOption key ++ "invalid int value: " ++ Text.quoted value
  | .unknownCommand word known =>
    "argument command: invalid choice: " ++ Text.quoted word ++ " (choose from " ++
      ", ".intercalate (known.map Text.quoted) ++ ")"
  | .inputMissing => "the following arguments are required: input"
  | .unrecognized words => "unrecognized arguments: " ++ " ".intercalate words

/-- A minus sign before digits, which may have a decimal point among or before them. -/
def looksNegative (word : String) : Bool :=
  let isDigit (c : Char) : Bool := (Text.digitValue? c).isSome
  let cs := if word.toList.getLast? == some '\n' then word.toList.dropLast else word.toList
  match cs with
  | '-' :: rest =>
    let whole := rest.takeWhile isDigit
    match rest.dropWhile isDigit with
    | [] => !whole.isEmpty
    | '.' :: fraction => !fraction.isEmpty && fraction.all isDigit
    | _ => false
  | _ => false

def cutAtEquals (cs : List Char) : List Char × Option (List Char) :=
  let before := cs.takeWhile (· != '=')
  match cs.dropWhile (· != '=') with
  | [] => (before, none)
  | _ :: after => (before, some after)

/-- The options that a word not spelled out in full may stand for. -/
def Grammar.candidates (g : Grammar) (cs : List Char) : List Word :=
  match cs with
  | '-' :: '-' :: _ =>
    let (start, value) := cutAtEquals cs
    (g.spellings.filter (fun e => start.isPrefixOf e.1.toList)).map
      (fun e => .option e.2 e.1 value)
  | d :: c :: rest =>
    let short := String.ofList [d, c]
    (g.spellings.filter (fun e => e.1 == short)).map (fun e => .option e.2 e.1 (some rest))
  | _ => []

def Word.name : Word → String
  | .option _ name _ => name
  | _ => ""

/-- A word with a dash that fits no option is an operand if it looks negative or holds a space. -/
def Grammar.readWord (g : Grammar) (word : String) : Except WordError Word :=
  let cs := word.toList
  match cs with
  | '-' :: _ :: _ =>
    match g.spellings.lookup word with
    | some key => .ok (.option key word none)
    | none =>
      let (start, value) := cutAtEquals cs
      match value, g.spellings.lookup (String.ofList start) with
      | some v, some key => .ok (.option key (String.ofList start) (some v))
      | _, _ =>
        match g.candidates cs with
        | [w] => .ok w
        | [] =>
          if looksNegative word || cs.contains ' ' then .ok (.operand word) else .ok (.unknown word)
        | ws => .error (.ambiguous word (ws.map Word.name))
  | _ => .ok (.operand word)

def Grammar.readWords (g : Grammar) : List String → Except WordError (List (String × Word))
  | [] => .ok []
  | "--" :: rest => .ok (("--", .separator) :: rest.map (fun w => (w, .operand w)))
  | w :: rest => do
    let first ← g.readWord w
    let others ← g.readWords rest
    return (w, first) :: others

inductive Event where
  | option (key : Key) (value : Option String)
  | operands (words : List String)
deriving DecidableEq, Repr

/-- Options with their values. The last option may still want the next word. -/
structure Spelled where
  events : List Event
  wanting : Option Key := none

/-- The value attached to an option. Two dashes stand for no value at all. -/
def attachedValue (cs : List Char) : Option String :=
  if cs = ['-', '-'] then none else some (String.ofList cs)

/-- The letters are further short options, up to one that takes the rest as its value. -/
def Grammar.spellLetters (g : Grammar) (key : Key) : List Char → Except WordError Spelled
  | [] => .error (.valueRefused key "")
  | c :: cs =>
    let this := Event.option key none
    match g.spellings.lookup (String.ofList ['-', c]) with
    | none => .error (.valueRefused key (String.ofList (c :: cs)))
    | some next =>
      if next.takesValue then
        if cs.isEmpty then .ok ⟨[this], some next⟩
        else .ok ⟨[this, .option next (attachedValue cs)], none⟩
      else if cs.isEmpty then .ok ⟨[this, .option next none], none⟩
      else (g.spellLetters next cs).map (fun s => { s with events := this :: s.events })

def Grammar.spellWord (g : Grammar) (key : Key) (name : String) :
    Option (List Char) → Except WordError Spelled
  | none =>
    if key.takesValue then .ok ⟨[], some key⟩ else .ok ⟨[.option key none], none⟩
  | some cs =>
    if key.takesValue then .ok ⟨[.option key (attachedValue cs)], none⟩
    else if name.startsWith "--" then .error (.valueRefused key (String.ofList cs))
    else g.spellLetters key cs

structure Reading where
  events : List Event := []
  extras : List String := []
  failure : Option WordError := none
deriving Repr

namespace Reading

def event (e : Event) (r : Reading) : Reading := { r with events := e :: r.events }

def extra (w : String) (r : Reading) : Reading := { r with extras := w :: r.extras }

end Reading

inductive Wanted where
  | nothing
  | one
  | rest
deriving DecidableEq, Repr

/-- The separator is dropped beside a wanted single operand. -/
def Grammar.walk (g : Grammar) (wanted : Wanted) : List (String × Word) → Reading
  | [] => {}
  | (w, .operand _) :: rest =>
    match wanted with
    | .nothing => (g.walk .nothing rest).extra w
    | .one =>
      match rest with
      | (_, .separator) :: rest => (g.walk .nothing rest).event (.operands [w])
      | rest => (g.walk .nothing rest).event (.operands [w])
    | .rest => { events := [.operands (w :: rest.map (·.1))] }
  | (w, .separator) :: rest =>
    match wanted, rest with
    | .one, (v, _) :: rest => (g.walk .nothing rest).event (.operands [v])
    | .rest, v :: rest => { events := [.operands (w :: v.1 :: rest.map (·.1))] }
    | _, rest => (g.walk wanted rest).extra w
  | (w, .unknown _) :: rest => (g.walk wanted rest).extra w
  | (_, .option key name attached) :: rest =>
    match g.spellWord key name attached with
    | .error e => { failure := some e }
    | .ok s =>
      let before (r : Reading) : Reading := { r with events := s.events ++ r.events }
      match s.wanting with
      | none => before (g.walk wanted rest)
      | some key =>
        match rest with
        | (v, .operand _) :: rest =>
          before ((g.walk wanted rest).event (.option key (some v)))
        | _ => { failure := some (.valueMissing key) }

def Grammar.read (g : Grammar) (wanted : Wanted) (words : List String) : Reading :=
  match g.readWords words with
  | .ok ws => g.walk wanted ws
  | .error e => { failure := some e }

end BusMachine.Command
