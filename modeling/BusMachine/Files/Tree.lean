import BusMachine.Files.Path
import BusMachine.Text.Quoted

namespace BusMachine

inductive Node where
  | file (bytes : List UInt8)
  | directory
deriving DecidableEq, Repr

inductive FileError where
  | missing (path : String)
  | exists (path : String)
  | notDirectory (path : String)
  | isDirectory (path : String)
  | nameTooLong (path : String)
  | nullCharacter
deriving DecidableEq, Repr

def FileError.message : FileError → String
  | .missing path => "[Errno 2] No such file or directory: " ++ Text.quoted path
  | .exists path => "[Errno 17] File exists: " ++ Text.quoted path
  | .notDirectory path => "[Errno 20] Not a directory: " ++ Text.quoted path
  | .isDirectory path => "[Errno 21] Is a directory: " ++ Text.quoted path
  | .nameTooLong path => "[Errno 36] File name too long: " ++ Text.quoted path
  | .nullCharacter => "embedded null byte"

/-- A place in the tree: the names that lead to it, with a leading slash as a name of its own. -/
abbrev Place := List String

structure FileTree where
  nodes : List (Place × Node) := []
deriving DecidableEq, Repr

namespace FileTree

/-- The starting directory, the directories above it and the root are always there. -/
def node? (t : FileTree) (p : Place) : Option Node :=
  if p.all (· == "..") || p == ["/"] then some .directory else t.nodes.lookup p

def put (t : FileTree) (p : Place) (n : Node) : FileTree :=
  ⟨(p, n) :: t.nodes.filter (fun e => e.1 != p)⟩

/-- The place one name further; two dots lead back. -/
def next (here : Place) (name : String) : Place :=
  if name != ".." then here ++ [name]
  else match here.getLast? with
    | none | some ".." => here ++ [name]
    | some "/" => here
    | some _ => here.dropLast

def nameLimit : Nat := 255

def pathLimit : Nat := 4095

def walk (t : FileTree) (path : String) (here : Place) : List String → Except FileError Place
  | [] => .ok here
  | name :: names =>
    match t.node? here with
    | some .directory =>
      if nameLimit < name.utf8ByteSize then .error (.nameTooLong path)
      else t.walk path (next here name) names
    | some (.file _) => .error (.notDirectory path)
    | none => .error (.missing path)

def start (p : Path) : Place := if p.root.isEmpty then [] else ["/"]

def spelledPlace (p : Path) : Place := p.parts.foldl next (start p)

def place (t : FileTree) (p : Path) : Except FileError Place :=
  let path := p.toString
  if path.toList.contains '\x00' then .error .nullCharacter
  else if pathLimit < path.utf8ByteSize then .error (.nameTooLong path)
  else t.walk path (start p) p.parts

def read (t : FileTree) (p : Path) : Except FileError (List UInt8) := do
  match t.node? (← t.place p) with
  | some (.file bytes) => return bytes
  | some .directory => throw (.isDirectory p.toString)
  | none => throw (.missing p.toString)

def update (t : FileTree) (p : Path) (f : List UInt8 → List UInt8) : Except FileError FileTree := do
  let here ← t.place p
  match t.node? here with
  | some (.file bytes) => return t.put here (.file (f bytes))
  | some .directory => throw (.isDirectory p.toString)
  | none => return t.put here (.file (f []))

def write (t : FileTree) (p : Path) (bytes : List UInt8) : Except FileError FileTree :=
  t.update p (fun _ => bytes)

def append (t : FileTree) (p : Path) (bytes : List UInt8) : Except FileError FileTree :=
  t.update p (· ++ bytes)

def makeLast (t : FileTree) (p : Path) : Except FileError FileTree := do
  let here ← t.place p
  match t.node? here with
  | some .directory => return t
  | some (.file _) => throw (.exists p.toString)
  | none => return t.put here .directory

/-- The directories above are made only when they turn out to be missing. -/
def makeStage (t : FileTree) (p : Path) : Nat → Except FileError FileTree
  | 0 => t.makeLast { p with parts := [] }
  | n + 1 =>
    let stage := { p with parts := p.parts.take (n + 1) }
    match t.makeLast stage with
    | .error (.missing _) => do (← t.makeStage p n).makeLast stage
    | r => r

def makeDirectory (t : FileTree) (p : Path) : Except FileError FileTree :=
  t.makeStage p p.parts.length

def changes (t before : FileTree) : List (Place × List UInt8) :=
  t.nodes.filterMap (fun e =>
    match e.2 with
    | .file bytes => if before.node? e.1 == some (.file bytes) then none else some (e.1, bytes)
    | .directory => none)

end FileTree

def placeText : Place → String
  | "/" :: names => "/" ++ "/".intercalate names
  | names => "/".intercalate names

end BusMachine
