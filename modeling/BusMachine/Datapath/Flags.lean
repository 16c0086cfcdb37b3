import BusMachine.Datapath.Error

/-! The flags: bit 0 says that a result is zero, bit 1 that it is negative. -/
namespace BusMachine

inductive Flag where
  | zero
  | negative
deriving DecidableEq, Repr

def Flag.position : Flag → Int
  | .zero => 0
  | .negative => 1

def Flag.holds (result : Int) : Flag → Bool
  | .zero => result == 0
  | .negative => result < 0

def bitWord (bit : Bool) : Int := if bit then 1 else 0

/-- The lowest bit in two's complement. -/
def lowBit (n : Int) : Bool := n % 2 == 1

structure Flags where
  bits : List Bool
deriving DecidableEq, Repr

namespace Flags

def cleared (count : Nat) : Flags := ⟨List.replicate count false⟩

def ofCount (host : Host) (count : Int) : Except MemoryError Flags :=
  (cellCount host count).map cleared

def get (f : Flags) (i : Int) : Except IndexError Bool := Position.read f.bits i

def set (f : Flags) (i : Int) (bit : Bool) : Except IndexError Flags :=
  (Position.locate f.bits.length .writing i).map (fun n => ⟨f.bits.set n bit⟩)

def record (f : Flags) (result : Int) (flag : Flag) : Except IndexError Flags :=
  f.set flag.position (flag.holds result)

def reset (f : Flags) : Flags := cleared f.bits.length

end Flags

end BusMachine
