import BusMachine.Instruction.Opcode
import BusMachine.Text.Lines
import BusMachine.Text.LowerCase

/-! Statements: the lines of a source text that hold more than blanks and a comment. -/
namespace BusMachine

open Text

structure Statement where
  line : Nat
  /-- the line as written, without carriage returns at its end -/
  raw : String
  /-- the line without comment and blanks around it -/
  text : String
deriving DecidableEq, Repr

namespace Statement

def isLetter (c : Char) : Bool := c.isAlpha

def isNameChar (c : Char) : Bool := c.isAlphanum

def isName : List Char → Bool
  | [] => false
  | c :: cs => isLetter c && cs.all isNameChar

/-- A word may carry one line feed at its end; it does not count towards its shape. -/
def withoutFinalNewline (cs : List Char) : List Char :=
  if cs.getLast? == some '\n' then cs.dropLast else cs

def strip (line : List Char) : List Char := trim (line.takeWhile (· != ';'))

/-- Lower case of ASCII is enough: no other character has a lower case in a mnemonic. -/
def spellsMnemonic (word : String) : Bool := Opcode.isMnemonic (lowerCase word)

def declaresVariable (text : String) : Bool :=
  isName (withoutFinalNewline text.toList) && !spellsMnemonic text

def label? (text : String) : Option String :=
  let cs := withoutFinalNewline text.toList
  let name := cs.takeWhile isNameChar
  if isName name && (cs.dropWhile isNameChar).dropWhile isBlank == [':'] then
    some (String.ofList name)
  else none

def ofLine (line : Nat) (cs : List Char) : Statement :=
  ⟨line, String.ofList (trimEndOf (· == '\r') cs), String.ofList (strip cs)⟩

def ofLines (n : Nat) : List (List Char) → List Statement
  | [] => []
  | l :: ls =>
    if (strip l).isEmpty then ofLines (n + 1) ls else ofLine n l :: ofLines (n + 1) ls

def ofSource (source : String) : List Statement := ofLines 1 (splitLines source.toList)

def wordsOf (text : String) : List String := (words text.toList).map String.ofList

end Statement

def stripComment (line : String) : String := String.ofList (Statement.strip line.toList)

end BusMachine
