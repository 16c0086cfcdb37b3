import BusMachine.Position
import BusMachine.Text.Numeral

/-! What can go wrong in the datapath. The control unit answers a fault by stopping. -/
namespace BusMachine

inductive Fault where
  | address (bank : String) (address : Int) (size : Nat)
  | register (id : Int)
deriving DecidableEq, Repr

inductive MemoryError where
  | sizeNotPositive (size : Int)
  /-- more cells than positions -/
  | unindexable
  /-- more cells than there is storage for -/
  | exhausted
  | doesNotFit (words size : Nat) (base : Int)
  | emptyRows
  | unwritable
deriving DecidableEq, Repr

inductive DatapathError where
  | fault (f : Fault)
  | unknownBus (name : String)
  | index (e : IndexError)
  | memory (e : MemoryError)
  /-- a fault or a line of the trace that holds a number of too many digits -/
  | unwritable
deriving DecidableEq, Repr

/-- What a machine is simulated on. -/
structure Host where
  writing : Writing := .limited
  /-- the most cells that there is storage for, if it has an end -/
  storage : Option Nat := none
deriving DecidableEq, Repr

def Fault.number : Fault → Int
  | .address _ a _ => a
  | .register id => id

def Fault.message : Fault → String
  | .address bank a size =>
    bank ++ ": address " ++ toString a ++ " out of range [0, " ++ toString size ++ ")"
  | .register id => "Register id out of range: " ++ toString id

def MemoryError.message : MemoryError → String
  | .sizeNotPositive size =>
    Writing.limited.message size ("Memory size must be positive, got " ++ toString size)
  | .doesNotFit words size base =>
    Writing.limited.message base
      ("Program of " ++ toString words ++ " words does not fit in " ++ toString size ++
        "-word memory at base " ++ toString base)
  | .unindexable => IndexError.unindexable.message
  | .exhausted => ""
  | .emptyRows => "range() arg 3 must not be zero"
  | .unwritable => NumeralError.unwritable.message

/-- The error that a fault is reported as, with its number in the report. -/
def Fault.raised (k : Writing) (f : Fault) : DatapathError :=
  if k.allows f.number then .fault f else .unwritable

def cellCount (host : Host) (count : Int) : Except MemoryError Nat :=
  if !Position.isIndexable count then .error .unindexable
  else if host.storage.any (· < count.toNat) then .error .exhausted
  else .ok count.toNat

def DatapathError.message : DatapathError → String
  | .fault f => f.message
  | .unknownBus name => "'Buses' object has no attribute '" ++ name ++ "'"
  | .index e => e.message
  | .memory e => e.message
  | .unwritable => NumeralError.unwritable.message

end BusMachine
