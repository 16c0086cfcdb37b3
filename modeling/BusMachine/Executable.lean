import BusMachine.Text.Lines
import BusMachine.Text.Numeral

/-! Executable text: one decimal word a line, blank lines aside. -/
namespace BusMachine

open Text

/-- The first line, counted from 1, that is neither blank nor a word, without the blanks at
its ends. -/
structure ExecutableError where
  line : Nat
  text : String
deriving DecidableEq, Repr

def ExecutableError.message (e : ExecutableError) : String :=
  "Line " ++ toString e.line ++ ": not an integer word: " ++ quoted e.text

namespace Executable

def readLines (n : Nat) : List (List Char) → Except ExecutableError (List Int)
  | [] => .ok []
  | l :: ls =>
    let text := trim l
    if text.isEmpty then readLines (n + 1) ls
    else match Numeral.read (String.ofList text) with
      | .error _ => .error ⟨n, String.ofList text⟩
      | .ok w => (readLines (n + 1) ls).map (w :: ·)

def ofChars (cs : List Char) : Except ExecutableError (List Int) := readLines 1 (lines cs)

def ofText (s : String) : Except ExecutableError (List Int) := ofChars s.toList

/-- The words of a file that holds the text: its line ends are unified before it is read. -/
def ofFileText (s : String) : Except ExecutableError (List Int) := ofChars (unifyNewlines s.toList)

def toText (words : List Int) : String := String.join (words.map (fun w => toString w ++ "\n"))

end Executable

end BusMachine
