import BusMachine.Text.Quoted
import BusMachine.Text.UpperCase

namespace BusMachine

inductive Register where
  | ir
  | reg0
  | reg1
  | reg2
  | reg3
  | pc
  | stktop
  | stkbot
deriving DecidableEq, Repr

namespace Register

def all : List Register := [.ir, .reg0, .reg1, .reg2, .reg3, .pc, .stktop, .stkbot]

def id : Register → Nat
  | .ir => 0
  | .reg0 => 1
  | .reg1 => 2
  | .reg2 => 3
  | .reg3 => 4
  | .pc => 5
  | .stktop => 6
  | .stkbot => 7

def ofId? (n : Int) : Option Register := all.find? (fun r => (r.id : Int) == n)

def name : Register → String
  | .ir => "IR"
  | .reg0 => "REG0"
  | .reg1 => "REG1"
  | .reg2 => "REG2"
  | .reg3 => "REG3"
  | .pc => "PC"
  | .stktop => "STKTOP"
  | .stkbot => "STKBOT"

def lowerName : Register → String
  | .ir => "ir"
  | .reg0 => "reg0"
  | .reg1 => "reg1"
  | .reg2 => "reg2"
  | .reg3 => "reg3"
  | .pc => "pc"
  | .stktop => "stktop"
  | .stkbot => "stkbot"

def named? (s : String) : Option Register :=
  let upper := Text.upperCase s
  all.find? (fun r => r.name == upper)

def unknownMessage (s : String) : String := Text.quoted (Text.upperCase s)

theorem ofId?_id (r : Register) : ofId? r.id = some r := by
  cases r <;> rfl

end Register

end BusMachine
