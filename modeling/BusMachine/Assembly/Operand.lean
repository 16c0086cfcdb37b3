import BusMachine.Assembly.Statement
import BusMachine.Text.Numeral

/-! Operands whose addresses are still open. -/
namespace BusMachine

open Text

inductive Operand where
  | register (name : String)
  | symbol (name : String)
  | literal (text : String)
deriving DecidableEq, Repr

namespace Operand

def kind : Operand → OperandKind
  | .register _ => .register
  | .symbol _ => .memory
  | .literal _ => .immediate

def token : Operand → String
  | .register name => "%" ++ name
  | .symbol name => "&" ++ name
  | .literal text => text

def ofToken (t : String) : Operand :=
  match t.toList with
  | '%' :: name => .register (String.ofList name)
  | '&' :: name => .symbol (String.ofList name)
  | _ => .literal t

def isImmediate (cs : List Char) : Bool :=
  let digits := match cs with
    | '+' :: ds => ds
    | '-' :: ds => ds
    | ds => ds
  !digits.isEmpty && digits.all Char.isDigit

/-- An immediate is kept in its shortest decimal form. -/
def ofWord (word : String) : Except NumeralError (Option Operand) :=
  let cs := word.toList
  let body := Statement.withoutFinalNewline cs
  match body with
  | '%' :: name =>
    if Statement.isName name then .ok (some (.register (String.ofList name))) else .ok none
  | _ =>
    if Statement.isName body then .ok (some (.symbol word))
    else if isImmediate body then
      (Numeral.read word).map (fun n => some (.literal (toString n)))
    else .ok none

end Operand

end BusMachine
